import Stylesheets.Template.Helper
import Stylesheets.Template.Parser

/-!
# Rendering templates

A template is rendered for a table of variables.  The nodes are rendered in
order for the current frame, the first failure ends everything.
-/

namespace Stylesheets.Template

def escapeChar (c : Char) : Text :=
  if c = '&' then "&amp;".toList
  else if c = '"' then "&quot;".toList
  else if c = '\'' then "&#x27;".toList
  else if c = '`' then "&#x60;".toList
  else if c = '<' then "&lt;".toList
  else if c = '>' then "&gt;".toList
  else [c]

def escape (text : Text) : Text := text.flatMap escapeChar

mutual

def evaluate (root : Value) (this : Datum) : Argument → Except Failure Datum
  | .path steps => this.resolve root steps
  | .constant value => .ok (.value value)
  | .named argument => evaluate root this argument
  | .call function arguments => do
    let given ← evaluateAll root this arguments
    match function with
    | [name] =>
      match helper? name with
      | some helper => Call.run helper root (arguments.any Argument.isNamed) given
      | none => .error .rejected
    | _ => .error .rejected

def evaluateAll (root : Value) (this : Datum) : List Argument → Except Failure (List Datum)
  | [] => .ok []
  | argument :: rest => do
    return (← evaluate root this argument) :: (← evaluateAll root this rest)

end

def missing (root : Value) (this : Datum) (arguments : List Argument) : Except Failure Datum := do
  let given ← evaluateAll root this arguments
  if arguments.any Argument.isNamed then Block.wrongKind
  else if given.isEmpty then return .nothing
  else .error .rejected

/-- An operation is used with the arguments at hand, which are looked at before. -/
def useWith (root : Value) (this : Datum) (arguments : List Argument) (found : Datum) :
    Except Failure Datum :=
  match found with
  | .operation effect => do
    let _ ← evaluateAll root this arguments
    Datum.used (.operation effect)
  | found => .ok found

def expression (root : Value) (this : Datum) (path : Steps) (arguments : List Argument) :
    Except Failure Datum :=
  match path with
  | [name] =>
    match helper? name with
    | some helper => do
      let given ← evaluateAll root this arguments
      Call.run helper root (arguments.any Argument.isNamed) given
    | none => do
      let found ← this.resolve root path
      if found.isNothing then missing root this arguments
      else useWith root this arguments found
  | path => do useWith root this arguments (← this.resolve root path)

mutual

def renderNode (root : Value) : Node → Datum → Rendering
  | .literal text, _ => .ok text
  | .comment, _ => .ok []
  | .inclusion, _ => .error .rejected
  | .expression escaped path arguments, this => do
    let found ← expression root this path arguments
    return if escaped then escape found.display else found.display
  | .block inverted name arguments body otherwise, this =>
    let forward : Parts :=
      ⟨fun datum => renderNodes root body datum.framed,
        fun datum => renderNodes root otherwise datum.framed⟩
    let parts := if inverted then forward.swap else forward
    match helper? name with
    | some helper => do
      let given ← evaluateAll root this arguments
      Block.run helper parts this (arguments.any Argument.isNamed) given
    | none => do Block.forValue parts this (← this.resolve root [name])

def renderNodes (root : Value) : List Node → Datum → Rendering
  | [], _ => .ok []
  | node :: rest, this => do
    return (← renderNode root node this) ++ (← renderNodes root rest this)

end

def handlebars : Engine where
  compile text :=
    match parse? text with
    | none => .error .rejected
    | some nodes => .ok fun table =>
      renderNodes (.table table) nodes (Datum.value (.table table)).framed

theorem process_handlebars {text : Text} {nodes : List Node} (h : parse? text = some nodes)
    (bindings : Table) (path : Path) :
    handlebars.process bindings path text =
      let table := bindings.insert pathName (.text path.text)
      (renderNodes (.table table) nodes (Datum.value (.table table)).framed).mapError
        (Failure.fault (.templateFailure path)) := by
  simp only [Engine.process, handlebars, h]
  rfl

end Stylesheets.Template
