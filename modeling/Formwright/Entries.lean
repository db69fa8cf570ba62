/-!
Maps that remember the order in which their keys were first inserted.
-/

namespace Formwright

abbrev Entries (α : Type) := List (String × α)

namespace Entries

variable {α β : Type}

def find? (entries : Entries α) (key : String) : Option α := List.lookup key entries

def contains (entries : Entries α) (key : String) : Bool := (find? entries key).isSome

def keys (entries : Entries α) : List String := entries.map Prod.fst

/-- A known key keeps its position and takes the new value. -/
def insert (entries : Entries α) (key : String) (value : α) : Entries α :=
  match entries with
  | [] => [(key, value)]
  | (other, old) :: rest =>
    if other = key then (key, value) :: rest else (other, old) :: insert rest key value

def upsert (entries : Entries α) (key : String) (change : Option α → α) : Entries α :=
  insert entries key (change (find? entries key))

def erase (entries : Entries α) (key : String) : Entries α := entries.filter (·.1 != key)

def insertAll (entries : Entries α) (pairs : List (String × α)) : Entries α :=
  pairs.foldl (fun entries pair => insert entries pair.1 pair.2) entries

def ofPairs (pairs : List (String × α)) : Entries α := insertAll [] pairs

def insertMissing (entries : Entries α) (pairs : List (String × α)) : Entries α :=
  pairs.foldl
    (fun entries pair => if contains entries pair.1 then entries else insert entries pair.1 pair.2)
    entries

end Entries
end Formwright
