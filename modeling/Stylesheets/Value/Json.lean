import Stylesheets.Value.Display
import Stylesheets.Text.Quoted

/-!
# Values as JSON documents

Every item and every entry stands on a line of its own, two spaces deeper than
the list or table around it; only what is empty stays on one line.  Dates and
times have no form of their own there and stand as text.
-/

namespace Stylesheets.Value

def indentation : Nat := 2

def newLine (depth : Nat) : Text := '\n' :: List.replicate (indentation * depth) ' '

mutual

def json (depth : Nat) : Value → Text
  | null => "null".toList
  | bool true => "true".toList
  | bool false => "false".toList
  | int value => Text.ofInt value
  | float value => floatFormat.text value
  | text value => Text.quotedAscii value
  | moment value => Text.quotedAscii value.text
  | list [] => ['[', ']']
  | list (item :: rest) =>
    '[' :: newLine (depth + 1) ++ json (depth + 1) item ++ jsonItems (depth + 1) rest ++
      newLine depth ++ [']']
  | table [] => ['\x7b', '\x7d']
  | table ((key, item) :: rest) =>
    '\x7b' :: newLine (depth + 1) ++ Text.quotedAscii key ++ ':' :: ' ' ::
      json (depth + 1) item ++ jsonEntries (depth + 1) rest ++ newLine depth ++ ['\x7d']

def jsonItems (depth : Nat) : List Value → Text
  | [] => []
  | item :: rest => ',' :: newLine depth ++ json depth item ++ jsonItems depth rest

def jsonEntries (depth : Nat) : List (Text × Value) → Text
  | [] => []
  | (key, item) :: rest =>
    ',' :: newLine depth ++ Text.quotedAscii key ++ ':' :: ' ' :: json depth item ++
      jsonEntries depth rest

end

def jsonDocument (value : Value) : Text := value.json 0 ++ ['\n']

end Stylesheets.Value
