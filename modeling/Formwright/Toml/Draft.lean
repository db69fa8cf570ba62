import Formwright.Entries
import Formwright.Toml.Value

/-!
Tables while a document is being read. How a table came about decides what may still be added.
-/

namespace Formwright.Toml

inductive Origin
  /-- Only named on the way to a table inside it. -/
  | implied
  /-- Made by a dotted key. -/
  | dotted
  | header
deriving DecidableEq, Repr

inductive Draft
  /-- Closed: nothing can be added. -/
  | closed (value : Value)
  | table (origin : Origin) (entries : List (String × Draft))
  /-- Several tables under one name. Only the last can grow. -/
  | tables (earlier : List (List (String × Draft))) (last : List (String × Draft))

namespace Draft

def within (change : Entries Draft → Option (Entries Draft)) :
    List String → Entries Draft → Option (Entries Draft)
  | [], entries => change entries
  | key :: path, entries =>
    match Entries.find? entries key with
    | none =>
      (within change path []).map fun inner => Entries.insert entries key (.table .implied inner)
    | some (.table origin inner) =>
      (within change path inner).map fun inner => Entries.insert entries key (.table origin inner)
    | some (.tables earlier last) =>
      (within change path last).map fun last => Entries.insert entries key (.tables earlier last)
    | some (.closed _) => none

def openTable (key : String) (entries : Entries Draft) : Option (Entries Draft) :=
  match Entries.find? entries key with
  | none => some (Entries.insert entries key (.table .header []))
  | some (.table .implied inner) => some (Entries.insert entries key (.table .header inner))
  | some _ => none

def openNext (key : String) (entries : Entries Draft) : Option (Entries Draft) :=
  match Entries.find? entries key with
  | none => some (Entries.insert entries key (.tables [] []))
  | some (.tables earlier last) =>
    some (Entries.insert entries key (.tables (earlier ++ [last]) []))
  | some _ => none

/-- A dotted key makes its tables itself, or goes on with those that dotted keys have made.
`open_` tells whether the table at hand takes the value. -/
def addValue (value : Value) (key : String) (open_ : Bool) :
    List String → Entries Draft → Option (Entries Draft)
  | [], entries =>
    if !open_ || Entries.contains entries key then none
    else some (Entries.insert entries key (.closed value))
  | name :: path, entries =>
    match Entries.find? entries name with
    | none =>
      (addValue value key true path []).map fun inner =>
        Entries.insert entries name (.table .dotted inner)
    | some (.table .dotted inner) =>
      (addValue value key true path inner).map fun inner =>
        Entries.insert entries name (.table .dotted inner)
    | some (.table .implied inner) =>
      (addValue value key false path inner).map fun inner =>
        Entries.insert entries name (.table .implied inner)
    | some (.tables earlier last) =>
      (addValue value key false path last).map fun last =>
        Entries.insert entries name (.tables earlier last)
    | some _ => none

def sortByKey (entries : List (String × Value)) : List (String × Value) :=
  entries.mergeSort fun first second => decide (first.1 ≤ second.1)

mutual

def value : Draft → Value
  | .closed value => value
  | .table _ entries => .table (sortByKey (values entries))
  | .tables earlier last => .array (tableValues earlier ++ [.table (sortByKey (values last))])

def values : List (String × Draft) → List (String × Value)
  | [] => []
  | (key, draft) :: later => (key, value draft) :: values later

def tableValues : List (List (String × Draft)) → List Value
  | [] => []
  | entries :: later => .table (sortByKey (values entries)) :: tableValues later

end

end Draft
end Formwright.Toml
