import Stylesheets.Indented.Item
import Stylesheets.Indented.Statement
import Stylesheets.Indented.Output

/-!
# From indentation to brackets

A code line opens a block when the next code line is indented deeper, and a
line that is not deeper than an open block closes it.  The lines directly
inside one block, and those outside all blocks, must share one indentation:
that of the first of them.  Comments take no part in this.
-/

namespace Stylesheets.Indented

structure Block where
  indent : Nat
  childIndent : Option Nat
  deriving DecidableEq, Repr

/-- The open blocks, innermost first, and the indentation outside all of them. -/
structure Nesting where
  blocks : List Block
  outerIndent : Option Nat
  deriving DecidableEq, Repr

structure Inconsistency where
  number : Nat
  text : Text
  deriving DecidableEq, Repr

namespace Nesting

def empty : Nesting := ⟨[], none⟩

def depth (nesting : Nesting) : Nat := nesting.blocks.length

def settle (indent : Nat) (nesting : Nesting) : Nesting :=
  { nesting with blocks := nesting.blocks.dropWhile fun block => indent ≤ block.indent }

def place? (indent : Nat) (nesting : Nesting) : Option Nesting :=
  match nesting.blocks with
  | [] =>
    match nesting.outerIndent with
    | none => some { nesting with outerIndent := some indent }
    | some outer => if indent = outer then some nesting else none
  | block :: around =>
    match block.childIndent with
    | none =>
      some { nesting with blocks := { block with childIndent := some indent } :: around }
    | some child => if indent = child then some nesting else none

def opening (indent : Nat) (nesting : Nesting) : Nesting :=
  { nesting with blocks := ⟨indent, none⟩ :: nesting.blocks }

end Nesting

def closings (fromDepth toDepth : Nat) : List OutputLine :=
  (List.range' toDepth (fromDepth - toDepth)).reverse.map .close

def nextIndent? : List Item → Option Nat
  | [] => none
  | .code line :: _ => some line.indent
  | .comment _ :: rest => nextIndent? rest

def goesDeeper (indent : Nat) (rest : List Item) : Bool :=
  match nextIndent? rest with
  | none => false
  | some next => indent < next

def endingOf (statement : Text) (deeper : Bool) : Ending :=
  if isContinued statement then .nothing
  else if deeper then .opensBlock
  else if isTerminated statement then
    if statement.getLast? == some ';' then .nothing else .semicolon
  else .emptyBlock

def codeOutput (depth : Nat) (line : Line) (deeper : Bool) : CodeOutput :=
  let (statement, comment) := splitComment line.text
  let spelled := spellOut statement
  { depth, statement := spelled, ending := endingOf spelled deeper, comment }

def layOut (nesting : Nesting) : List Item → Except Inconsistency (List OutputLine)
  | [] => .ok (closings nesting.depth 0)
  | .comment group :: rest => do
    let later ← layOut nesting rest
    return group.written.map (.comment nesting.depth) ++ later
  | .code line :: rest =>
    let settled := nesting.settle line.indent
    match settled.place? line.indent with
    | none => .error ⟨line.number, line.text⟩
    | some placed => do
      let output := codeOutput placed.depth line (goesDeeper line.indent rest)
      let later ← layOut
        (if output.ending = .opensBlock then placed.opening line.indent else placed) rest
      return closings nesting.depth settled.depth ++ .code output :: later

def convert (text : Text) : Except Inconsistency Text :=
  (layOut .empty (scan (linesOf text))).map outputText

end Stylesheets.Indented
