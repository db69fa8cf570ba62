import Formwright.Form.Reading
import Formwright.Script.Declaration

/-!
Everything read from one set of documents and scripts.
-/

namespace Formwright

structure Skipped where
  file : String
  message : String
deriving DecidableEq, Repr, Inhabited

structure Batch where
  forms : List Form
  /-- Bodies by handler name. -/
  handlers : Entries String
  skipped : List Skipped
deriving Repr, Inhabited

namespace Batch

def empty : Batch := ⟨[], [], []⟩

def addDocument (batch : Batch) (document : String × String) : Batch :=
  match readForms document.2 with
  | .ok forms => { batch with forms := batch.forms ++ forms }
  | .error error => { batch with skipped := batch.skipped ++ [⟨document.1, error.message⟩] }

def addScript (batch : Batch) (script : String × String) : Batch :=
  { batch with handlers := Entries.insertAll batch.handlers (Script.handlers script.2) }

def ofSources (documents scripts : Entries String) : Batch :=
  scripts.foldl addScript (documents.foldl addDocument empty)

end Batch
end Formwright
