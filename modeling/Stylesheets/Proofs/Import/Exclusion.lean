import Mathlib
import Stylesheets.Import.Importer
import Stylesheets.Libraries.Standard
import Stylesheets.Proofs.FileTree.LinkFree

/-!
# Exclusion and spelling

A path may name a file with detours over double dots.  Where there are no
links, such a path and its normal path agree in everything that decides whether
the file may be imported, but for the key that the exclude patterns see.
-/

namespace Stylesheets.Catalog

variable {catalog : Catalog} {tree : FileTree} {current path : Path}

theorem isRequirable_of_isFile (h : tree.isFile current path = .ok true) :
    catalog.isRequirable tree current path =
      (hasExtension path.name catalog.settings.extensions).map
        fun hasExtension => hasExtension && !catalog.isExcluded path := by
  rw [isRequirable, h]
  cases hasExtension path.name catalog.settings.extensions with
  | error fault => rfl
  | ok answer => cases answer <;> rfl

theorem isRequirable_eq_iff {other : Path} (h : tree.isFile current path = .ok true)
    (hother : tree.isFile current other = .ok true) (hname : other.name = path.name) :
    catalog.isRequirable tree current path = catalog.isRequirable tree current other ↔
      hasExtension path.name catalog.settings.extensions ≠ .ok true ∨
        catalog.isExcluded path = catalog.isExcluded other := by
  rw [isRequirable_of_isFile h, isRequirable_of_isFile hother, hname]
  cases hasExtension path.name catalog.settings.extensions with
  | error fault => simp [Except.map]
  | ok answer => cases answer <;> simp [Except.map]

/--
Without links, a path of a file and its normal path may be imported alike
exactly if the exclude patterns say the same of both; they do if there are none
or if the path has no double dots.
-/
theorem isRequirable_normalize_iff (hfree : tree.LinkFree) (habsolute : path.isAbsolute = true)
    (hproper : path.IsProper) (h : tree.isFile current path = .ok true) :
    (tree.locate true current path.normalize = tree.locate true current path ∧
        tree.isFile current path.normalize = .ok true ∧ path.normalize.name = path.name) ∧
      (catalog.isRequirable tree current path =
          catalog.isRequirable tree current path.normalize ↔
        hasExtension path.name catalog.settings.extensions ≠ .ok true ∨
          catalog.isExcluded path = catalog.isExcluded path.normalize) ∧
      (catalog.excluded = none ∨ Path.doubleDot ∉ path.segments →
        catalog.isRequirable tree current path =
          catalog.isRequirable tree current path.normalize) := by
  obtain ⟨hsame, hnormal, hname⟩ := hfree.isFile_normalize habsolute hproper h
  refine ⟨⟨hsame, hnormal, hname⟩, isRequirable_eq_iff h hnormal hname, fun hplain => ?_⟩
  rw [isRequirable_eq_iff h hnormal hname]
  right
  rcases hplain with hnone | hdots
  · simp [isExcluded, hnone]
  · rw [Path.normalize_eq_self hdots]

def draftsSettings : Settings where
  roots := [⟨.root, ["css".toList]⟩]
  rootPath := ⟨.root, ["css".toList]⟩
  extensions := Settings.defaultExtensions.map .text
  prefixes := Settings.defaultPrefixes.map .text
  marker := .text Settings.defaultMarker
  excludes := [.text "/drafts/".toList]
  bindings := []
  roots_isAbsolute := by simp [Path.isAbsolute]
  rootPath_isAbsolute := rfl

def draftsCatalog : Catalog where
  settings := draftsSettings
  excluded := some
    (Ignore.Spec.excludes ⟨[⟨true, (Ignore.patternParts? "/drafts/".toList).getD []⟩]⟩)
  engine := Template.handlebars

def draftsTree : FileTree :=
  let put := fun (tree : FileTree) (path : String) =>
    tree.put ⟨.root, []⟩ (.ofText path.toList) (.file ⟨#[]⟩)
  put (put (put .empty "/css/drafts/x.scss") "/css/y.scss") "/css/a/z.scss"

theorem linkFree_draftsTree : draftsTree.LinkFree :=
  FileTree.linkFree_of_entries (by cbv)

def draftsImporter : Importer where
  catalog := draftsCatalog
  naming := .default
  tree := draftsTree
  current := ⟨.root, []⟩
  compiling := none

/-- A detour leads to an excluded file, and another one away from a file that is not. -/
theorem isRequirable_detours :
    ofSettings .standard draftsSettings = .ok draftsCatalog ∧ draftsTree.LinkFree ∧
      (Path.ofText "/css/a/../drafts/x.scss".toList).normalize =
        Path.ofText "/css/drafts/x.scss".toList ∧
      draftsImporter.isRequirable (.ofText "/css/drafts/x.scss".toList) = .ok false ∧
      draftsImporter.isRequirable (.ofText "/css/a/../drafts/x.scss".toList) = .ok true ∧
      draftsImporter.find "drafts/x".toList none = .ok none ∧
      draftsImporter.find "a/../drafts/x".toList none =
        .ok (some (.ofText "/css/a/../drafts/x.scss".toList)) ∧
      (Path.ofText "/css/drafts/../y.scss".toList).normalize =
        Path.ofText "/css/y.scss".toList ∧
      draftsImporter.isRequirable (.ofText "/css/y.scss".toList) = .ok true ∧
      draftsImporter.isRequirable (.ofText "/css/drafts/../y.scss".toList) = .ok false := by
  refine ⟨rfl, linkFree_draftsTree, ?_, ?_, ?_, ?_, ?_, ?_, ?_, ?_⟩ <;> cbv

theorem isRequirable_harmlessDetour :
    draftsImporter.isRequirable (.ofText "/css/a/../y.scss".toList) = .ok true ∧
      draftsImporter.isRequirable (.ofText "/css/a/../y.scss".toList) =
        draftsImporter.isRequirable (Path.ofText "/css/a/../y.scss".toList).normalize := by
  have hrequirable : draftsImporter.isRequirable (.ofText "/css/a/../y.scss".toList) =
      .ok true := by
    cbv
  have hfile : draftsTree.isFile ⟨.root, []⟩ (.ofText "/css/a/../y.scss".toList) = .ok true := by
    cbv
  have hexcluded : draftsCatalog.isExcluded (.ofText "/css/a/../y.scss".toList) =
      draftsCatalog.isExcluded (Path.ofText "/css/a/../y.scss".toList).normalize := by
    cbv
  have hdetour := @isRequirable_normalize_iff draftsCatalog draftsTree ⟨.root, []⟩ _
    linkFree_draftsTree rfl (Path.isProper_ofText _) hfile
  exact ⟨hrequirable, hdetour.2.1.mpr (.inr hexcluded)⟩

end Stylesheets.Catalog
