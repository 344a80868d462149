import Stylesheets.Toml.Parser

/-!
# The table of a configuration file

Statements are carried out in order.  A header opens a table, in which the
following keys are entered; neither a key nor a table may come twice.
-/

namespace Stylesheets.Toml

def alter (change : Table → Option Table) (table : Table) : List Text → Option Table
  | [] => change table
  | name :: rest =>
    match (table.get? name).getD (.table []) with
    | .table inner =>
      (alter change inner rest).map fun changed => table.insert name (.table changed)
    | .list items =>
      match items.reverse with
      | .table last :: before =>
        (alter change last rest).map fun changed =>
          table.insert name (.list (before.reverse ++ [.table changed]))
      | _ => none
    | _ => none

/-- The table so far, the table that is open, and those that only longer names have made. -/
structure Draft where
  table : Table
  current : List Text
  implied : List (List Text)

namespace Draft

def empty : Draft := ⟨[], [], []⟩

def openLast (implied inArray : Bool) (name : Text) (table : Table) : Option Table :=
  match table.get? name with
  | none => some (table.insert name (if inArray then .list [.table []] else .table []))
  | some (.list items) =>
    if inArray ∧ !implied then some (table.insert name (.list (items ++ [.table []]))) else none
  | some _ => if implied ∧ !inArray then some table else none

def newPrefixes (table : Table) : List Text → List (List Text)
  | [] => []
  | [_] => []
  | name :: rest =>
    match table.get? name with
    | some (.table inner) => (newPrefixes inner rest).map (name :: ·)
    | some _ => []
    | none => [name] :: (newPrefixes [] rest).map (name :: ·)

def carryOut (draft : Draft) : Statement → Option Draft
  | .assignment key value => do
    let table ← alter (assign · key value) draft.table draft.current
    return { draft with table }
  | .header name inArray => do
    let last ← name.getLast?
    let implied := draft.implied.elem name
    let table ← alter (openLast implied inArray last) draft.table name.dropLast
    return {
      table
      current := name
      implied := draft.implied.erase name ++ newPrefixes draft.table name }

end Draft

def parse? (text : Text) : Option Table := do
  let found ← statements text.length text
  return (← found.foldlM Draft.carryOut .empty).table

end Stylesheets.Toml
