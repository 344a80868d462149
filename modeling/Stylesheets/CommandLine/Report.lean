import Stylesheets.Import.Content
import Stylesheets.Value.Json

/-!
# Reports

What the command prints about resolved imports: a JSON document, or a table
drawn with lines, followed by the contents and the dependencies if these are
asked for.
-/

namespace Stylesheets.CommandLine

structure Report where
  files : List ImportedFile
  dependencies : List Path
  showsContent : Bool
  showsDependencies : Bool

namespace Report

def fileEntry (showsContent : Bool) (file : ImportedFile) : Value :=
  .table (("path".toList, .text file.path.text) ::
    if showsContent then [("content".toList, .text file.content)] else [])

/-- Dependencies are always part of the document. -/
def value (report : Report) : Value :=
  .table [
    ("imports".toList, .list (report.files.map (fileEntry report.showsContent))),
    ("dependencies".toList,
      .list (report.dependencies.map fun path => .text path.text))]

def json (report : Report) : Text := report.value.jsonDocument

def drawingWidth : Nat := 80

def tabStop : Nat := 8

def expandTabs (column : Nat) : Text → Text
  | [] => []
  | c :: rest =>
    if c = '\t' then
      let width := tabStop - column % tabStop
      List.replicate width ' ' ++ expandTabs (column + width) rest
    else c :: expandTabs (column + 1) rest

def padLeft (width : Nat) (text : Text) : Text :=
  List.replicate (width - text.length) ' ' ++ text

def padRight (width : Nat) (text : Text) : Text :=
  text ++ List.replicate (width - text.length) ' '

def centered (filling : Char) (width : Nat) (text : Text) : Text :=
  let left := max 1 ((width - text.length) / 2)
  List.replicate left filling ++ text ++ List.replicate (max 1 (width - text.length - left)) filling

def rule (title : Text) : Text := centered '─' drawingWidth (' ' :: title ++ [' '])

structure Row where
  number : Text
  path : Text
  bytes : Text

def headings : Row := ⟨['#'], "path".toList, "bytes".toList⟩

def rows (files : List ImportedFile) : List Row :=
  files.zipIdx.map fun (file, index) => {
    number := Text.ofNat (index + 1)
    path := file.path.text
    bytes := Text.groupThousands (Text.ofNat (Text.byteLength file.content)) }

structure Widths where
  number : Nat
  path : Nat
  bytes : Nat

def widest (column : Row → Text) (rows : List Row) : Nat :=
  rows.foldl (fun width row => max width (column row).length) 0

def Widths.ofRows (rows : List Row) : Widths :=
  ⟨widest Row.number rows, widest Row.path rows, widest Row.bytes rows⟩

def Widths.total (widths : Widths) : Nat := widths.number + widths.path + widths.bytes + 10

def border (widths : Widths) (left line crossing right : Char) : Text :=
  let column := fun width => List.replicate (width + 2) line
  left :: column widths.number ++ crossing :: column widths.path ++
    crossing :: column widths.bytes ++ [right]

def drawRow (widths : Widths) (line : Char) (row : Row) : Text :=
  [line, ' '] ++ padLeft widths.number row.number ++ [' ', line, ' '] ++
    padRight widths.path row.path ++ [' ', line, ' '] ++
    padLeft widths.bytes row.bytes ++ [' ', line]

def title : Text := "resolved imports".toList

def tableLines (files : List ImportedFile) : List Text :=
  let body := rows files
  let widths := Widths.ofRows (headings :: body)
  [centered ' ' widths.total title, border widths '┏' '━' '┳' '┓', drawRow widths '┃' headings,
    border widths '┡' '━' '╇' '┩'] ++
  body.map (drawRow widths '│') ++ [border widths '└' '─' '┴' '┘']

def isDrawn (c : Char) : Bool :=
  !(c == '\x07' || c == '\x08' || c == '\x0b' || c == '\x0c' || c == '\r')

def contentLines (file : ImportedFile) : List Text :=
  rule file.path.text ::
    ((file.content.filter isDrawn).splitOn '\n').map (expandTabs 0)

def lines (report : Report) : List Text :=
  tableLines report.files ++
  (if report.showsContent then report.files.flatMap contentLines else []) ++
  (if report.showsDependencies then
    rule "dependencies".toList :: report.dependencies.map Path.text else [])

def drawing (report : Report) : Text := report.lines.flatMap fun line => line ++ ['\n']

end Report

end Stylesheets.CommandLine
