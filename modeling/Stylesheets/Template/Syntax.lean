import Stylesheets.Value.Basic

/-!
# Templates

A template is a sequence of literal texts, expressions, blocks and references
to other templates.  A path is a list of steps; a step that names nothing is
the empty text.
-/

namespace Stylesheets.Template

abbrev Steps := List Text

inductive Argument where
  | path (steps : Steps)
  | constant (value : Value)
  | named (argument : Argument)
  | call (function : Steps) (arguments : List Argument)
  deriving Inhabited

namespace Argument

def isNamed : Argument → Bool
  | named _ => true
  | _ => false

end Argument

inductive Node where
  | literal (text : Text)
  | comment
  | expression (escaped : Bool) (path : Steps) (arguments : List Argument)
  | block (inverted : Bool) (name : Text) (arguments : List Argument)
      (body otherwise : List Node)
  | inclusion
  deriving Inhabited

/-- The step to what surrounds the current value. -/
def outward : Text := "@_parent".toList

def outwardForData : Text := "@@_parent".toList

def openTag : Text := ['\x7b', '\x7b']

def closeTag : Text := ['\x7d', '\x7d']

end Stylesheets.Template
