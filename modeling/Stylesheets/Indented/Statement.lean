import Stylesheets.Text.Blank
import Stylesheets.Text.Letter

/-!
# Statements

What stands on a code line.  A comment after the statement is split off, and
three shorthands are spelled out: `=name` defines a mixin, `+name` includes
one, and `:name value` is a property.
-/

namespace Stylesheets.Indented

/-- Cuts a text at the first white space that a `//` follows. -/
def cutComment : Text → Text × Text
  | [] => ([], [])
  | c :: rest =>
    let comment := Text.trimStart rest
    if Text.isBlank c && "//".toList.isPrefixOf comment then ([], comment)
    else
      let (code, later) := cutComment rest
      (c :: code, later)

/--
The statement of a code line and the comment after it.  A line with a `url(`
keeps its text whole, as two slashes may belong to an address.
-/
def splitComment (text : Text) : Text × Text :=
  if text.contains "url(".toList then (text, []) else cutComment text

def isNameChar (c : Char) : Bool := Text.isWord c || c == '-'

def nameAndValue? (text : Text) : Option (Text × Text) :=
  let name := text.takeWhile isNameChar
  let rest := text.dropWhile isNameChar
  let value := Text.trimStart rest
  if name.isEmpty || value.isEmpty || value.length == rest.length then none
  else some (name, value)

def spellOut (statement : Text) : Text :=
  match statement with
  | '=' :: rest =>
    let name := Text.trimStart rest
    if name.isEmpty then statement else "@mixin ".toList ++ name
  | '+' :: rest =>
    let name := Text.trimStart rest
    if name.isEmpty then statement else "@include ".toList ++ name
  | ':' :: rest =>
    match nameAndValue? rest with
    | some (name, value) => name ++ ':' :: ' ' :: value
    | none => statement
  | _ => statement

def startsProperty (c : Char) : Bool :=
  isNameChar c || c == '$' || c == '#' || c == '\x7b' || c == '\x7d'

def isProperty : Text → Bool
  | [] => false
  | c :: rest =>
    startsProperty c &&
      match Text.cut? ':' rest with
      | none => false
      | some (_, []) => true
      | some (_, next :: _) => Text.isBlank next

def isDirective : Text → Bool
  | '@' :: _ => true
  | '$' :: _ => true
  | '%' :: _ => true
  | _ => false

def isTerminated (statement : Text) : Bool :=
  isDirective statement || isProperty statement

def isContinued (statement : Text) : Bool := statement.getLast? == some ','

end Stylesheets.Indented
