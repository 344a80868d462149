import Mathlib
import Stylesheets.CommandLine.Command
import Stylesheets.Libraries.Standard
import Stylesheets.Proofs.Settings.Loading
import Stylesheets.Proofs.Settings.Precedence

/-!
# Arguments over a configuration

What the arguments say counts before the configuration, setting by setting.
The variables are the exception: those of the arguments take the place of the
configured ones even if there are none.
-/

namespace Stylesheets.CommandLine

open Settings (configured changed? inForce build buildFrom)

namespace Request

def given? (request : Request) (bindings : Table) : Setting → Option Value
  | .roots =>
    if request.roots.isEmpty then none else some (.list (request.roots.map .text))
  | .rootPath => request.rootPath.map .text
  | .excludes =>
    if request.excludes.isEmpty then none else some (.list (request.excludes.map .text))
  | .bindings => if request.bindings.isEmpty then none else some (.table bindings)
  | _ => none

/-- The value of a setting in the arguments, or else in the configuration. -/
def preferred (request : Request) (configuration bindings : Table) (setting : Setting) :
    Option Value :=
  (request.given? bindings setting).or (configured configuration setting)

/-- The value that is used: the variables of the arguments count even if there are none. -/
def used (request : Request) (configuration bindings : Table) (setting : Setting) :
    Option Value :=
  if setting = .bindings then some (.table bindings)
  else request.preferred configuration bindings setting

end Request

end Stylesheets.CommandLine
