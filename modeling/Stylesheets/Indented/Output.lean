import Stylesheets.Text.Basic

/-!
# Lines of bracketed syntax

The output of a conversion is a list of lines, each with the number of blocks
around it; every block indents by two spaces.
-/

namespace Stylesheets.Indented

inductive Ending where
  | opensBlock
  | emptyBlock
  | semicolon
  | nothing
  deriving DecidableEq, Repr

namespace Ending

def text : Ending → Text
  | opensBlock => [' ', '\x7b']
  | emptyBlock => [' ', '\x7b', '\x7d']
  | semicolon => [';']
  | nothing => []

end Ending

structure CodeOutput where
  depth : Nat
  statement : Text
  ending : Ending
  comment : Text
  deriving DecidableEq, Repr

inductive OutputLine where
  | code (line : CodeOutput)
  | comment (depth : Nat) (text : Text)
  | close (depth : Nat)
  deriving DecidableEq, Repr

def padding (depth : Nat) : Text := List.replicate (2 * depth) ' '

namespace CodeOutput

def text (line : CodeOutput) : Text :=
  padding line.depth ++ line.statement ++ line.ending.text ++
    if line.comment.isEmpty then [] else ' ' :: line.comment

end CodeOutput

namespace OutputLine

def text : OutputLine → Text
  | .code line => line.text
  | .comment depth text => padding depth ++ text
  | .close depth => padding depth ++ ['\x7d']

def isComment : OutputLine → Bool
  | .comment _ _ => true
  | _ => false

end OutputLine

def outputText (lines : List OutputLine) : Text :=
  lines.flatMap fun line => line.text ++ ['\n']

end Stylesheets.Indented
