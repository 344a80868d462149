import Stylesheets.FileTree.Walk
import Stylesheets.Toml.Document

/-!
# Written file trees

A file tree may be written down as a table with four entries: the current
directory, a list of directories, and two tables from paths to the texts of
files and to the targets of links.  Paths are seen from the current directory.
-/

namespace Stylesheets

structure Snapshot where
  tree : FileTree
  current : Path

namespace Snapshot

def currentName : Text := "current".toList

def directoriesName : Text := "directories".toList

def filesName : Text := "files".toList

def linksName : Text := "links".toList

def textsOf (value : Value) : List Text := (value.items?.getD []).filterMap Value.text?

def textEntriesOf : Value → List (Text × Text)
  | .table entries => entries.filterMap fun (key, value) => value.text?.map fun text => (key, text)
  | _ => []

def ofTable (table : Table) : Snapshot :=
  let part := fun name => (table.get? name).getD .null
  let start : Path := ⟨.root, []⟩
  let current := start.append (.ofText (((part currentName).text?).getD []))
  let put := fun (tree : FileTree) (path : Text) entry => tree.put current (.ofText path) entry
  let standing := FileTree.empty.put start current .directory
  let directories := (textsOf (part directoriesName)).foldl
    (fun tree path => put tree path .directory) standing
  let files := (textEntriesOf (part filesName)).foldl
    (fun tree (path, text) => put tree path (.file text.encode)) directories
  let links := (textEntriesOf (part linksName)).foldl
    (fun tree (path, target) => put tree path (.link target)) files
  ⟨links, current⟩

def read? (text : Text) : Option Snapshot := (Toml.parse? text.lineFeedsOnly).map ofTable

end Snapshot

end Stylesheets
