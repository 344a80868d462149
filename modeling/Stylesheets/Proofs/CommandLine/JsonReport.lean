import Stylesheets.CommandLine.Command
import Stylesheets.Libraries.Standard
import Stylesheets.Proofs.CommandLine.Overriding
import Stylesheets.Proofs.Import.Dependencies
import Stylesheets.Proofs.Import.GlobGrammar
import Stylesheets.Proofs.Settings.Building
import Stylesheets.Proofs.Value.Json

/-!
# What the command prints as a document

The command stands for one run of the library: settings are loaded and built,
a catalog is made of them, and one import is looked up.  It prints a document
exactly if this run gives files, or none for a glob import, and then the
document is about these files.  In all other cases it prints nothing.
-/

namespace Stylesheets.CommandLine

variable {libraries : Libraries} {tree : FileTree} {current : Path} {written : List Text}
  {arguments : Arguments} {request : Request}

def Outcome.output : Outcome → Text
  | .misused => []
  | .finished _ output _ => output

namespace Request

def imported (request : Request) (libraries : Libraries) (tree : FileTree) (current : Path)
    (bindings : Table) : Except Fault (List ImportedFile) := do
  let configuration ← Settings.load libraries.reader tree current
    (request.rootPath.map .ofText) (request.config.map .ofText)
  let settings ← Settings.build tree current configuration (request.overrides bindings)
  let importer : Importer := {
    catalog := ← Catalog.ofSettings libraries settings
    naming := .ofSettings settings
    tree, current
    compiling := some (.ofText request.parent) }
  (importer.imports request.spelling request.parent).outcome

/-- The run gives these files, and if it gives none, then for a glob import. -/
def Yields (request : Request) (libraries : Libraries) (tree : FileTree) (current : Path)
    (files : List ImportedFile) : Prop :=
  ∃ bindings, request.givenVariables = some bindings ∧
    request.imported libraries tree current bindings = .ok files ∧
    (files = [] → Glob.IsGlobLike request.spelling)

end Request

namespace Request

def reportOn (request : Request) (files : List ImportedFile) : Report where
  files
  dependencies := files.map ImportedFile.path
  showsContent := request.showsContent
  showsDependencies := request.showsDependencies

/-- What is printed for the files of an import, or the fault if it leads nowhere. -/
def printed (request : Request) (files : List ImportedFile) : Except Fault Text :=
  if files.isEmpty ∧ !Glob.isGlob request.spelling then
    .error (.importUnresolved request.spelling)
  else .ok (request.printedReport (request.reportOn files))

theorem Yields.unique {files others : List ImportedFile}
    (h : request.Yields libraries tree current files)
    (hothers : request.Yields libraries tree current others) :
    files = others := by
  obtain ⟨bindings, hbindings, himported, -⟩ := h
  obtain ⟨same, hsame, hagain, -⟩ := hothers
  obtain rfl := Option.some.inj (hbindings.symm.trans hsame)
  exact Except.ok.inj (himported.symm.trans hagain)

end Request

end Stylesheets.CommandLine
