import Stylesheets.Fault

/-!
# Patterns for files

A language of patterns tells of a list of items which files they name, unless
one of the items is no pattern.  Here it is any language.
-/

namespace Stylesheets.Ignore

structure Language where
  read? : List Value → Option (Text → Bool)

namespace Language

def compile (language : Language) (items : List Value) : Except Fault (Option (Text → Bool)) :=
  if items.isEmpty then .ok none
  else
    match language.read? items with
    | none => .error (.settings (.patternsRejected items))
    | some names => .ok (some names)

def ofValue (language : Language) (value : Value) : Except Fault (Option (Text → Bool)) :=
  if !value.isTruthy then .ok none
  else
    match value, value.items? with
    | .text _, some items => .error (.settings (.patternsRejected items))
    | _, some items => language.compile items
    | _, none => .error (.breach .wrongKind)

end Language

end Stylesheets.Ignore
