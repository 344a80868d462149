import Stylesheets.Indented.Line

/-!
# Code lines and comment groups

Scanning divides the lines of a text into items.  A comment group is a line
that opens a comment and the longest run of lines after it that are blank or
indented deeper; every other line with text is a code line of its own.
-/

namespace Stylesheets.Indented

structure CommentGroup where
  number : Nat
  indent : Nat
  opening : Text
  continuation : List Text
  deriving DecidableEq, Repr

inductive Item where
  | code (line : Line)
  | comment (group : CommentGroup)
  deriving DecidableEq, Repr

namespace CommentGroup

def ofLines (opening : Line) (run : List Line) : CommentGroup where
  number := opening.number
  indent := opening.indent
  opening := opening.text
  continuation :=
    ((run.map Line.text).reverse.dropWhile List.isEmpty).reverse

/-- A silent comment runs to the end of its line, so each line of it is marked. -/
def isSilent (group : CommentGroup) : Bool := "//".toList.isPrefixOf group.opening

def lastLine (group : CommentGroup) : Text :=
  group.continuation.getLastD group.opening

def isClosed (group : CommentGroup) : Bool :=
  "*/".toList.isSuffixOf group.lastLine

def marked (mark line : Text) : Text :=
  if line.isEmpty then mark else mark ++ ' ' :: line

/-- The written lines of a group; a block comment is closed if its last line does not end it. -/
def written (group : CommentGroup) : List Text :=
  if group.isSilent then
    group.opening :: group.continuation.map (marked "//".toList)
  else
    group.opening :: group.continuation.map (marked " *".toList) ++
      if group.isClosed then [] else [" */".toList]

end CommentGroup

private theorem length_dropWhile_le {α : Type} (test : α → Bool) (items : List α) :
    (items.dropWhile test).length ≤ items.length :=
  (List.dropWhile_sublist test).length_le

def scan : List Line → List Item
  | [] => []
  | line :: rest =>
    if line.isBlank then scan rest
    else if line.opensComment then
      .comment (.ofLines line (rest.takeWhile (Line.continuesComment line.indent))) ::
        scan (rest.dropWhile (Line.continuesComment line.indent))
    else .code line :: scan rest
termination_by lines => lines.length
decreasing_by
  · simp
  · exact Nat.lt_succ_of_le (length_dropWhile_le _ rest)
  · simp

def codeLines (items : List Item) : List Line :=
  items.filterMap fun
    | .code line => some line
    | .comment _ => none

end Stylesheets.Indented
