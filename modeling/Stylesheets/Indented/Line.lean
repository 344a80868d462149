import Stylesheets.Text.Blank

/-!
# Lines of indented syntax

A line is kept as its number, its indentation and its text without white space
at the ends.  Only spaces and tabs at the very beginning indent a line; a tab
advances to the next column that is a multiple of four.
-/

namespace Stylesheets.Indented

def tabWidth : Nat := 4

def columnAfter (column : Nat) : Text → Nat
  | ' ' :: rest => columnAfter (column + 1) rest
  | '\t' :: rest => columnAfter (column + (tabWidth - column % tabWidth)) rest
  | _ => column

/-- The width of the indentation; white space at the end of a line indents nothing. -/
def indentationOf (raw : Text) : Nat := columnAfter 0 raw.trimEnd

structure Line where
  number : Nat
  indent : Nat
  text : Text
  deriving DecidableEq, Repr

namespace Line

def isBlank (line : Line) : Bool := line.text.isEmpty

def opensComment (line : Line) : Bool :=
  "//".toList.isPrefixOf line.text || "/*".toList.isPrefixOf line.text

/-- Whether the line belongs to a comment whose opening line is indented by `indent`. -/
def continuesComment (indent : Nat) (line : Line) : Bool :=
  line.isBlank || decide (indent < line.indent)

end Line

def linesOf (text : Text) : List Line :=
  text.lines.zipIdx.map fun (raw, index) => {
    number := index + 1
    indent := indentationOf raw
    text := raw.trim }

end Stylesheets.Indented
