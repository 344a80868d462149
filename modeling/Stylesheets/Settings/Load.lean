import Stylesheets.Libraries.Basic
import Stylesheets.Settings.Basic

/-!
# Finding a configuration

A configuration is read from a file that is named, or from the first of three
files in a directory that says anything.  Without a root path of its own it
gets the directory of the file.  What the text of a file says is up to a reader
of documents, which may be any.
-/

namespace Stylesheets.Settings

/-- The file of a whole project, in which the configuration is one table among others. -/
def projectFileName : Text := "pyproject.toml".toList

def fileNames : List Text :=
  [".sassimport.toml".toList, "sassimport.toml".toList, projectFileName]

def projectTableName : Text := "tool".toList

def ownTableName : Text := "sassimport".toList

/-- The value of a key, or the empty table; what is no table has no keys to ask for. -/
def entryOf (value : Value) (key : Text) : Except Fault Value :=
  match value with
  | .table entries => .ok ((Table.get? entries key).getD (.table []))
  | _ => .error (.breach .missingMember)

variable (reader : Reader) (tree : FileTree) (current : Path)

def readFile (file : Path) : Except Fault Value := do
  match tree.content? current file with
  | .error _ => .error (.settings (.fileUnreadable file))
  | .ok bytes =>
    match Text.decode? bytes with
    | none => .error (.breach .notText)
    | some text =>
      match reader text.lineFeedsOnly with
      | none => .error (.settings (.fileUnreadable file))
      | some table =>
        if file.name = projectFileName then
          entryOf (← entryOf (.table table) projectTableName) ownTableName
        else return .table table

def withRootPath (configuration : Value) (rootPath : Path) : Except Fault Table :=
  match configuration with
  | .table entries => .ok (Table.insertIfNew entries Setting.rootPath.name (.text rootPath.text))
  | _ => .error (.breach .missingMember)

def loadFile (file : Path) : Except Fault Table := do
  if !(← tree.isFile current file) then .error (.settings (.fileMissing file))
  else
    let configuration ← readFile reader tree current file
    withRootPath configuration (← tree.realPath current file).val.parent

def loadFirst (directory : Path) : List Text → Except Fault Table
  | [] => .ok []
  | name :: rest => do
    let file := directory.child name
    if !(← tree.isFile current file) then loadFirst directory rest
    else
      let configuration ← readFile reader tree current file
      if configuration.isTruthy then withRootPath configuration directory
      else loadFirst directory rest

def load (start file : Option Path) : Except Fault Table := do
  match file with
  | some file => loadFile reader tree current file
  | none =>
    loadFirst reader tree current (← tree.realPath current (start.getD current)) fileNames

end Stylesheets.Settings
