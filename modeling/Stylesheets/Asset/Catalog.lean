import Stylesheets.Asset.Attributes
import Stylesheets.Import.Search
import Stylesheets.Libraries.Basic
import Stylesheets.Settings.Basic

/-!
# Catalogs

A catalog holds the settings of all imports and what is derived from them: the
paths that a name may stand for, and which files may be imported.
-/

namespace Stylesheets

structure Catalog where
  settings : Settings
  excluded : Option (Text → Bool)
  engine : Template.Engine

namespace Catalog

def ofSettings (libraries : Libraries) (settings : Settings) : Except Fault Catalog := do
  return {
    settings
    excluded := ← libraries.language.compile settings.excludes
    engine := libraries.engine }

def extended (extensions : List Value) (base : Path) : List Path :=
  base :: extensions.map fun extension => .ofText (base.text ++ extension.display)

def tryPaths (catalog : Catalog) (candidate : Text) : List Path :=
  let path := Path.ofText candidate
  let bases :=
    if path.isAbsolute then [path]
    else catalog.settings.roots.map fun root => root.append path
  bases.flatMap (extended catalog.settings.extensions)

/-- Whether a name ends with one of the extensions; the first one that is no text is a fault. -/
def hasExtension (name : Text) : List Value → Except Fault Bool
  | [] => .ok false
  | .text extension :: rest =>
    if extension.isSuffixOf name then .ok true else hasExtension name rest
  | _ :: _ => Settings.wrongKind

/-- What exclude patterns see of a path: the way from the first root that holds it. -/
def matchKey (catalog : Catalog) (path : Path) : Text :=
  match catalog.settings.roots.findSome? fun root => root.below? path with
  | some way => Path.wayText way
  | none => path.text

def isExcluded (catalog : Catalog) (path : Path) : Bool :=
  match catalog.excluded with
  | some names => names (catalog.matchKey path)
  | none => false

def isRequirable (catalog : Catalog) (tree : FileTree) (current path : Path) :
    Except Fault Bool := do
  if !(← tree.isFile current path) then return false
  else if !(← hasExtension path.name catalog.settings.extensions) then return false
  else return !catalog.isExcluded path

def evaluate (catalog : Catalog) (tree : FileTree) (current path : Path)
    (processors : List Processor) : Except Fault Text :=
  match tree.content? current path with
  | .error .nullCharacter => .error (.breach .invalidValue)
  | .error _ => .error (.evaluation (.unreadable path))
  | .ok bytes =>
    match Text.decode? bytes with
    | none => .error (.evaluation (.notText path))
    | some text =>
      Processor.processAll catalog.engine catalog.settings.bindings path text processors

def scope (catalog : Catalog) (current : Path) : Scope where
  roots := catalog.settings.roots
  rootPath := catalog.settings.rootPath
  current := current

def source (catalog : Catalog) (tree : FileTree) (current : Path) : Source where
  tryPaths := catalog.tryPaths
  isRequirable := catalog.isRequirable tree current

end Catalog

end Stylesheets
