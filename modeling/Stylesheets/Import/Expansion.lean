import Stylesheets.Import.Glob
import Stylesheets.Import.Importer

/-!
# The files that a glob import names

A glob import is taken beside the importing file.  It names the files in a
directory, or all files below it, that may be imported, in the order of their
paths.
-/

namespace Stylesheets

structure GlobSpec where
  base : Path
  kind : GlobKind
  parent : Path
  deriving DecidableEq, Repr

namespace Glob

def ways (tree : FileTree) (address : Address) : GlobKind → List (List Text)
  | .singleLevel => (tree.children address).map fun name => [name]
  | .recursive => tree.descendants address

/-- Everything that a glob import may name; nothing if its base is no directory. -/
def entries (tree : FileTree) (current base : Path) (kind : GlobKind) :
    Except Fault (List Path) := do
  if !(← tree.isDirectoryAt current base) then return []
  else
    match tree.locate true current base with
    | .error _ => return []
    | .ok address =>
      return (ways tree address kind).map fun way => { base with segments := base.segments ++ way }

def inOrder (first second : Path) : Bool := first.text.notAfter second.text

def importable (isRequirable : Path → Except Fault Bool) (leftOut : List Path) :
    List Path → Except Fault (List Path)
  | [] => .ok []
  | path :: rest => do
    if leftOut.elem path then importable isRequirable leftOut rest
    else if ← isRequirable path then
      return path :: (← importable isRequirable leftOut rest)
    else importable isRequirable leftOut rest

end Glob

namespace Importer

def importingFile (importer : Importer) (parent : Text) : Except Fault Path := do
  if Spelling.isAbsolute parent then return (Path.ofText parent).normalize
  else
    match ← importer.find parent none with
    | some found => return found.normalize
    | none => .error (.parentUnresolved parent)

def globSpec (importer : Importer) (spelling parent : Text) : Except Fault GlobSpec := do
  let (residual, kind) ← Glob.parse spelling
  let parent ← importer.importingFile parent
  let base := Path.ofText (Spelling.join parent.parent.text [residual])
  return { base := (importer.rootPath.append base).normalize, kind, parent }

def globbed (importer : Importer) (base : Path) (kind : GlobKind) (leftOut : List Path) :
    Except Fault (List Path) := do
  let entries ← Glob.entries importer.tree importer.current base kind
  Glob.importable importer.isRequirable leftOut (entries.mergeSort Glob.inOrder)

def compiledFile (importer : Importer) : Option Path :=
  importer.compiling.map fun path => (importer.rootPath.append path).normalize

def expand (importer : Importer) (spelling parent : Text) : Answered (List Path) :=
  let found := do
    let spec ← importer.globSpec spelling parent
    importer.globbed spec.base spec.kind (spec.parent :: importer.compiledFile.toList)
  match found with
  | .error fault => .silent (.error fault)
  | .ok files => ⟨.ok files, files⟩

end Importer

end Stylesheets
