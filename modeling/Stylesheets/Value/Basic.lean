import Stylesheets.Value.Moment

/-!
# Values

What settings and template variables are made of: nothing, truth values,
whole and floating point numbers, text, dates and times, lists, and tables
whose entries keep their order.
-/

namespace Stylesheets

inductive Value where
  | null
  | bool (value : Bool)
  | int (value : Int)
  | float (value : Float)
  | text (value : Text)
  | moment (value : Moment)
  | list (items : List Value)
  | table (entries : List (Text × Value))
  deriving Inhabited

abbrev Table := List (Text × Value)

namespace Value

/-- Zero, nothing and everything empty count as false. -/
def isTruthy : Value → Bool
  | null => false
  | bool value => value
  | int value => value != 0
  | float value => value != 0
  | text value => !value.isEmpty
  | moment _ => true
  | list items => !items.isEmpty
  | table entries => !entries.isEmpty

def text? : Value → Option Text
  | text value => some value
  | _ => none

def isTable : Value → Bool
  | table _ => true
  | _ => false

def isList : Value → Bool
  | list _ => true
  | _ => false

/-- The items one meets when going through a value: a text has its characters, a table its keys. -/
def items? : Value → Option (List Value)
  | text value => some (value.map fun c => .text [c])
  | list items => some items
  | table entries => some (entries.map fun entry => .text entry.1)
  | _ => none

end Value

namespace Table

def get? (table : Table) (key : Text) : Option Value := table.lookup key

def contains (table : Table) (key : Text) : Bool := (table.get? key).isSome

def insert (table : Table) (key : Text) (value : Value) : Table :=
  match table with
  | [] => [(key, value)]
  | (held, old) :: rest =>
    if held = key then (key, value) :: rest else (held, old) :: insert rest key value

def ofList (entries : Table) : Table :=
  entries.foldl (fun table entry => table.insert entry.1 entry.2) []

def insertIfNew (table : Table) (key : Text) (value : Value) : Table :=
  if table.contains key then table else table.insert key value

end Table

end Stylesheets
