import Stylesheets.Template.Datum

/-!
# Helpers

A helper decides which part of a block is rendered, for what and how often; a
few helpers may also stand in an expression.
-/

namespace Stylesheets.Template

inductive Helper where
  | whenTrue
  | whenFalse
  | each
  | within
  | lookup
  | log
  | missing
  | missingBlock
  deriving DecidableEq, Repr

def helpers : List (Text × Helper) := [
  ("if".toList, .whenTrue),
  ("unless".toList, .whenFalse),
  ("each".toList, .each),
  ("with".toList, .within),
  ("lookup".toList, .lookup),
  ("log".toList, .log),
  ("helperMissing".toList, .missing),
  ("blockHelperMissing".toList, .missingBlock)]

def helper? (name : Text) : Option Helper := helpers.lookup name

abbrev Rendering := Except Failure Text

structure Parts where
  body : Datum → Rendering
  otherwise : Datum → Rendering

def Parts.swap (parts : Parts) : Parts := ⟨parts.otherwise, parts.body⟩

namespace Block

def wrongKind : Except Failure α := .error (.breach .wrongKind)

def whenTrue (parts : Parts) (this condition : Datum) : Rendering := do
  if ← (← condition.used).isTruthy then parts.body this else parts.otherwise this

def whenFalse (parts : Parts) (this condition : Datum) : Rendering := do
  if ← condition.isTruthy then return [] else parts.body this

def within (parts : Parts) (this context : Datum) : Rendering := do
  if ← context.isTruthy then parts.body (.frame context this none)
  else parts.otherwise this

def elements : Datum → List (Option Text × Value)
  | .value (.table entries) => entries.map fun (key, value) => (some key, value)
  | .value held => (held.items?.getD []).map fun item => (none, item)
  | .operation _ => []
  | .frame context _ _ => elements context

/-- An item that is of the wrong kind for the body is passed over. -/
def passingOver : Rendering → Rendering
  | .error (.breach .wrongKind) => .ok []
  | rendering => rendering

def eachFrom (parts : Parts) (this : Datum) (index : Nat) :
    List (Option Text × Value) → Rendering
  | [] => .ok []
  | (key, value) :: rest => do
    let loop : Loop := ⟨index, key, index == 0, rest.isEmpty⟩
    let first ← passingOver (parts.body (.frame (.value value) this (some loop)))
    return first ++ (← eachFrom parts this (index + 1) rest)

def each (parts : Parts) (this collection : Datum) : Rendering :=
  match elements collection with
  | [] => parts.otherwise this
  | found => eachFrom parts this 0 found

def forValue (parts : Parts) (this subject : Datum) : Rendering := do
  match ← subject.used with
  | .value (.text []) => parts.body (.value (.text []))
  | .value (.bool true) => parts.body this
  | .value (.list (item :: rest)) => each parts this (.value (.list (item :: rest)))
  | found => if ← found.isTruthy then parts.body found else parts.otherwise this

def run (helper : Helper) (parts : Parts) (this : Datum) (hasNamed : Bool)
    (arguments : List Datum) : Rendering :=
  if hasNamed then wrongKind
  else
    match helper, arguments with
    | .whenTrue, [condition] => whenTrue parts this condition
    | .whenFalse, [condition] => whenFalse parts this condition
    | .each, [collection] => each parts this collection
    | .within, [context] => within parts this context
    | .missingBlock, [subject] => forValue parts this subject
    | .lookup, [_] => .ok []
    | .log, [] => .ok []
    | .missing, [] => .ok []
    | .missing, _ => .error .rejected
    | _, _ => wrongKind

end Block

namespace Call

def lookup (root : Value) (collection key : Datum) : Datum :=
  match collection, key with
  | .value (.list items), .value (.int offset) =>
    ((Datum.itemAt? items offset).map .value).getD .nothing
  | .value (.list items), .value (.bool second) =>
    ((Datum.itemAt? items (if second then 1 else 0)).map .value).getD .nothing
  | .value (.text text), .value (.int offset) =>
    ((Datum.itemAt? text offset).map fun c => .value (.text [c])).getD .nothing
  | .value (.text text), .value (.bool second) =>
    ((Datum.itemAt? text (if second then 1 else 0)).map fun c => .value (.text [c])).getD
      .nothing
  | .value (.table entries), .value (.text key) =>
    ((Table.get? entries key).map .value).getD .nothing
  | .frame context parent loop, .value (.text key) =>
    Datum.get root key (.frame context parent loop)
  | _, _ => .nothing

/-- A helper for blocks takes its first argument for the parts of a block, which no value is. -/
def withoutParts (arguments : List Datum) : Except Failure Datum :=
  match arguments with
  | [.value (.table _), _] => .error (.breach .missingKey)
  | _ => Block.wrongKind

def run (helper : Helper) (root : Value) (hasNamed : Bool) (arguments : List Datum) :
    Except Failure Datum :=
  if hasNamed then Block.wrongKind
  else
    match helper, arguments with
    | .lookup, [collection, key] => .ok (lookup root collection key)
    | .log, [_] => .ok .nothing
    | .missing, [_] => .ok .nothing
    | .missing, _ :: _ => .error .rejected
    | .whenFalse, [parts, condition] => do
      if ← condition.isTruthy then return .nothing else withoutParts [parts, condition]
    | _, arguments => withoutParts arguments

end Call

end Stylesheets.Template
