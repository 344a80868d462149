import Stylesheets.Value.Basic
import Stylesheets.Fault

/-!
# Template engines

An engine compiles the text of a template into a function of the variables.
Here it is any engine; among the variables is the path of the template's file.
-/

namespace Stylesheets.Template

inductive Failure where
  | rejected
  | breach (cause : Breach)
  deriving DecidableEq, Repr

def Failure.fault (rejection : EvaluationFault) : Failure → Fault
  | rejected => .evaluation rejection
  | breach cause => .breach cause

structure Engine where
  compile : Text → Except Failure (Table → Except Failure Text)

def pathName : Text := "asset_path".toList

/-- Compiling and rendering may fail, each with a message of its own. -/
def Engine.process (engine : Engine) (bindings : Table) (path : Path) (text : Text) :
    Except Fault Text := do
  let template ← (engine.compile text).mapError (Failure.fault (.templateSyntax path))
  (template (bindings.insert pathName (.text path.text))).mapError
    (Failure.fault (.templateFailure path))

end Stylesheets.Template
