import Stylesheets.Value.Basic
import Stylesheets.Fault

/-!
# Dialects

A file is written in indented syntax when its name contains the marker.
-/

namespace Stylesheets

inductive Dialect where
  | standard
  | indented
  deriving DecidableEq, Repr

namespace Dialect

def name : Dialect → Text
  | standard => "scss".toList
  | indented => "sass".toList

def ofName? (name : Text) : Option Dialect :=
  [standard, indented].find? fun dialect => dialect.name == name

def ofPath (marker : Text) (path : Path) : Dialect :=
  if path.name.contains marker then .indented else .standard

def ofPathWith (marker : Value) (path : Path) : Except Fault Dialect :=
  match marker with
  | .text marker => .ok (ofPath marker path)
  | _ => .error (.breach .wrongKind)

end Dialect

end Stylesheets
