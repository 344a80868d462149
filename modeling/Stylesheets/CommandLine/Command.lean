import Stylesheets.CommandLine.Arguments
import Stylesheets.CommandLine.Report
import Stylesheets.Settings.Build
import Stylesheets.Settings.Load

/-!
# The command

The command looks up one import, for the file that contains it, with a
configuration that the arguments may override.  Faults of this library are
reported in one message; other breaches end the command without a word.
-/

namespace Stylesheets.CommandLine

inductive Outcome where
  | misused
  | finished (exitCode : Nat) (output complaint : Text)
  deriving DecidableEq, Repr

namespace Outcome

def printed (output : Text) : Outcome := finished 0 output []

def complaintStart : Text := "Error: ".toList

def failed (fault : Fault) : Outcome :=
  finished 1 []
    (match fault.message? with
    | some message => complaintStart ++ message ++ ['\n']
    | none => [])

def exitCode : Outcome → Nat
  | misused => 2
  | finished code _ _ => code

end Outcome

def versionText : Text := "sassimport, version 0.1.0\n".toList

structure Request where
  spelling : Text
  parent : Text
  roots : List Text
  rootPath : Option Text
  excludes : List Text
  bindings : List Text
  config : Option Text
  showsContent : Bool
  showsDependencies : Bool
  asJson : Bool
  deriving DecidableEq, Repr

namespace Request

def ofArguments? (arguments : Arguments) : Option Request := do
  let parent ← arguments.value? .parent
  match arguments.targets with
  | [spelling] =>
    return {
      spelling, parent
      roots := arguments.values .root
      rootPath := arguments.value? .rootPath
      excludes := arguments.values .exclude
      bindings := arguments.values .assignment
      config := arguments.value? .config
      showsContent := arguments.has .content
      showsDependencies := arguments.has .dependencies
      asJson := arguments.has .json }
  | _ => none

def entryAt? (tree : FileTree) (current : Path) (written : Text) : Option Entry :=
  if written.isEmpty then none else (tree.find? current (.ofText written)).toOption

def isDirectory : Entry → Bool
  | .directory => true
  | _ => false

/-- Directories must not be files and files no directories; the root path must exist. -/
def isUsable (request : Request) (tree : FileTree) (current : Path) : Bool :=
  (request.roots.all fun root => ((entryAt? tree current root).map isDirectory).getD true) &&
  (match request.rootPath with
    | some path => ((entryAt? tree current path).map isDirectory).getD false
    | none => true) &&
  (match request.config with
    | some file => !((entryAt? tree current file).map isDirectory).getD false
    | none => true)

def readAssignment (written : Text) : Option (Text × Value) :=
  (written.cut? '=').map fun (name, value) => (name.trim, .text value)

def givenVariables (request : Request) : Option Table :=
  (request.bindings.mapM readAssignment).map Table.ofList

def overrides (request : Request) (bindings : Table) : Table := [
  (Setting.roots.name, .list (request.roots.map .text)),
  (Setting.rootPath.name, (request.rootPath.map .text).getD .null),
  (Setting.excludes.name, .list (request.excludes.map .text)),
  (Setting.bindings.name, .table bindings)]

def configuration (request : Request) (libraries : Libraries) (tree : FileTree) (current : Path) :
    Except Fault Table :=
  Settings.load libraries.reader tree current (request.rootPath.map .ofText)
    (request.config.map .ofText)

def importer (request : Request) (libraries : Libraries) (tree : FileTree) (current : Path)
    (settings : Settings) : Except Fault Importer := do
  return {
    catalog := ← Catalog.ofSettings libraries settings
    naming := .ofSettings settings
    tree, current
    compiling := some (.ofText request.parent) }

def report (request : Request) (importer : Importer) : Except Fault Report := do
  let answered := importer.imports request.spelling request.parent
  let files ← answered.outcome
  if files.isEmpty ∧ !Glob.isGlob request.spelling then
    .error (.importUnresolved request.spelling)
  else
    return {
      files
      dependencies := answered.recorded
      showsContent := request.showsContent
      showsDependencies := request.showsDependencies }

def printedReport (request : Request) (report : Report) : Text :=
  if request.asJson then report.json else report.drawing

def answer (request : Request) (libraries : Libraries) (tree : FileTree) (current : Path)
    (configuration bindings : Table) : Except Fault Text := do
  let settings ← Settings.build tree current configuration (request.overrides bindings)
  let importer ← request.importer libraries tree current settings
  return request.printedReport (← request.report importer)

/-- The configuration is read before the variables are. -/
def run (request : Request) (libraries : Libraries) (tree : FileTree) (current : Path) : Outcome :=
  match request.configuration libraries tree current with
  | .error fault => .failed fault
  | .ok configuration =>
    match request.givenVariables with
    | none => .misused
    | some bindings =>
      match request.answer libraries tree current configuration bindings with
      | .error fault => .failed fault
      | .ok text => .printed text

end Request

def run (libraries : Libraries) (tree : FileTree) (current : Path) (written : List Text) :
    Outcome :=
  match Arguments.read? written with
  | none => .misused
  | some arguments =>
    match arguments.inquiry? with
    | some .version => .printed versionText
    | some _ => .printed []
    | none =>
      match Request.ofArguments? arguments with
      | none => .misused
      | some request =>
        if request.isUsable tree current then request.run libraries tree current else .misused

end Stylesheets.CommandLine
