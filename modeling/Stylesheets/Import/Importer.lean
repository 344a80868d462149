import Stylesheets.Asset.Catalog

/-!
# Importers

An importer looks imports up in a catalog on behalf of one compilation, in a
file tree as it is at that moment.  What it resolves it records as a
dependency.
-/

namespace Stylesheets

structure Naming where
  prefixes : List Value
  marker : Value

namespace Naming

def ofSettings (settings : Settings) : Naming := ⟨settings.prefixes, settings.marker⟩

def default : Naming :=
  ⟨Settings.defaultPrefixes.map .text, .text Settings.defaultMarker⟩

end Naming

structure Answered (α : Type) where
  outcome : Except Fault α
  recorded : List Path

namespace Answered

def silent (outcome : Except Fault α) : Answered α := ⟨outcome, []⟩

def ofFound (outcome : Except Fault (Option Path)) : Answered (Option Path) :=
  match outcome with
  | .error fault => silent (.error fault)
  | .ok found => ⟨.ok found, found.toList⟩

@[simp] theorem ofFound_error (fault : Fault) :
    ofFound (.error fault) = silent (.error fault) := rfl

@[simp] theorem ofFound_ok (found : Option Path) :
    ofFound (.ok found) = ⟨.ok found, found.toList⟩ := rfl

def map (change : α → β) (answered : Answered α) : Answered β :=
  ⟨answered.outcome.map change, answered.recorded⟩

end Answered

def Resolver.resolve (resolver : Resolver) (spelling : Text) (parent : Option Text) :
    Answered (Option Path) :=
  .ofFound (resolver.find spelling parent)

structure Importer where
  catalog : Catalog
  naming : Naming
  tree : FileTree
  current : Path
  /-- The file that the whole compilation started from. -/
  compiling : Option Path

namespace Importer

def rootPath (importer : Importer) : Path := importer.catalog.settings.rootPath

def isRequirable (importer : Importer) (path : Path) : Except Fault Bool :=
  importer.catalog.isRequirable importer.tree importer.current path

def resolver (importer : Importer) : Except Fault Resolver := do
  return {
    scope := importer.catalog.scope importer.current
    source := importer.catalog.source importer.tree importer.current
    prefixes := ← importer.naming.prefixes.mapM Settings.textOf }

def candidates (importer : Importer) (spelling : Text) (parent : Option Text) :
    Except Fault (List Text) :=
  importer.resolver.map fun resolver => resolver.candidates spelling parent

def find (importer : Importer) (spelling : Text) (parent : Option Text) :
    Except Fault (Option Path) := do
  (← importer.resolver).find spelling parent

def resolve (importer : Importer) (spelling : Text) (parent : Option Text) :
    Answered (Option Path) :=
  .ofFound (importer.find spelling parent)

end Importer

end Stylesheets
