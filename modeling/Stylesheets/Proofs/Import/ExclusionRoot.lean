import Stylesheets.Proofs.Import.Exclusion
import Stylesheets.Proofs.Path.Root
import Stylesheets.Proofs.Path.Ways

/-!
# The root that exclude patterns see

Exclude patterns see a file from the first root that holds it, in the order in
which the roots are given.  So of nested roots the deepest is taken only where
it comes first, and files may be excluded in one order and not in another.
-/

namespace Stylesheets

namespace Path

variable {path root other first deepest : Path} {roots order : List Path}

def firstRoot? (path : Path) (roots : List Path) : Option Path :=
  roots.find? fun root => root.holds path

theorem eq_of_descend_eq {names : List Text} (h : root.descend names = other.descend names) :
    root = other := by
  cases root
  cases other
  simpa [descend] using h

theorem exists_firstRoot? (h : ∃ root ∈ roots, root.holds path = true) :
    ∃ first, path.firstRoot? roots = some first := by
  rw [← Option.isSome_iff_exists, firstRoot?, List.find?_isSome]
  exact h

theorem firstRoot?_eq_deepest_iff (hfirst : path.firstRoot? roots = some first)
    (hdeepest : path.deepestRoot? roots = some deepest) :
    first = deepest ↔ ∀ root ∈ roots, root.holds path = true →
      root.segments.length ≤ first.segments.length := by
  have hiff := @deepestRoot?_eq_some_iff first path roots
  rw [hdeepest, Option.some_inj, eq_comm] at hiff
  rw [hiff, and_iff_right (List.mem_of_find?_eq_some hfirst),
    and_iff_right (by simpa using List.find?_some hfirst)]

theorem longestRoot?_eq_first_iff (hroots : ∀ root ∈ roots, root.IsNormal) (hpath : path.IsNormal)
    (hfirst : path.firstRoot? roots = some first)
    (hdeepest : path.deepestRoot? roots = some deepest) :
    path.longestRoot? roots = some first ↔ first = deepest ∧ path.CutOffIsShorter roots := by
  rw [← longestRoot?_eq_deepestRoot?_iff hroots hpath, hdeepest]
  constructor
  · intro hlongest
    have hholds : first.holds path = true := by simpa using List.find?_some hfirst
    have hsame := deepestRoot?_eq_of_holds hroots hpath hlongest hholds
    rw [hdeepest] at hsame
    exact ⟨(Option.some.inj hsame).symm, hlongest.trans hsame.symm⟩
  · rintro ⟨rfl, hlongest⟩
    exact hlongest

end Path

/-! ## Keys -/

namespace Catalog

variable {catalog : Catalog} {path root first other : Path}

/-- Exclude patterns see the path from this root. -/
def IsKeyedBy (catalog : Catalog) (root path : Path) : Prop :=
  ∃ position, root.below? path = some position ∧ catalog.matchKey path = Path.wayText position

theorem findSome?_below? (roots : List Path) (path : Path) :
    (roots.findSome? fun root => root.below? path) =
      (path.firstRoot? roots).bind fun root => root.below? path := by
  induction roots with
  | nil => rfl
  | cons root rest ih =>
      rw [Path.firstRoot?, List.findSome?_cons, List.find?_cons, Path.holds]
      cases hbelow : root.below? path with
      | none => exact ih
      | some position => simp [hbelow]

theorem isKeyedBy_firstRoot? (h : path.firstRoot? catalog.settings.roots = some first) :
    catalog.IsKeyedBy first path := by
  have hholds : first.holds path = true := by simpa using List.find?_some h
  obtain ⟨position, hposition⟩ := Option.isSome_iff_exists.mp hholds
  refine ⟨position, hposition, ?_⟩
  rw [matchKey, findSome?_below?, h, Option.bind_some, hposition]

theorem forall_mem_below? (hpath : path.IsProper) {position : List Text}
    (h : root.below? path = some position) :
    ∀ segment ∈ position, Path.isStep segment = true ∧ '/' ∉ segment := by
  intro segment hsegment
  rw [Path.below?_eq_some_iff] at h
  exact hpath segment (by rw [h]; exact List.mem_append_right _ hsegment)

theorem IsKeyedBy.unique (hpath : path.IsProper) (h : catalog.IsKeyedBy root path)
    (hother : catalog.IsKeyedBy other path) : root = other := by
  obtain ⟨position, hposition, hkey⟩ := h
  obtain ⟨way, hway, hotherKey⟩ := hother
  obtain rfl := (Path.wayText_inj (forall_mem_below? hpath hposition)
    (forall_mem_below? hpath hway)).mp (hkey.symm.trans hotherKey)
  rw [Path.below?_eq_some_iff] at hposition hway
  exact Path.eq_of_descend_eq (hposition.symm.trans hway)

def reordered (catalog : Catalog) (order : List Path) (h : order.Perm catalog.settings.roots) :
    Catalog where
  settings :=
    { catalog.settings with
      roots := order
      roots_isAbsolute := fun root hroot =>
        catalog.settings.roots_isAbsolute root (h.subset hroot) }
  excluded := catalog.excluded
  engine := catalog.engine

def excluding (catalog : Catalog) (names : Text → Bool) : Catalog :=
  { catalog with excluded := some names }

theorem isRequirable_eq_of_matchKey {catalog other : Catalog}
    (hextensions : other.settings.extensions = catalog.settings.extensions)
    (hexcluded : other.excluded = catalog.excluded)
    (hkey : other.matchKey path = catalog.matchKey path) (tree : FileTree) (current : Path) :
    other.isRequirable tree current path = catalog.isRequirable tree current path := by
  rw [isRequirable, isRequirable, isExcluded, isExcluded, hextensions, hexcluded, hkey]

theorem isRequirable_excluding {tree : FileTree} {current : Path}
    (hfile : tree.isFile current path = .ok true)
    (hextension : hasExtension path.name catalog.settings.extensions = .ok true)
    (names : Text → Bool) :
    (catalog.excluding names).isRequirable tree current path =
      .ok !names (catalog.matchKey path) := by
  have hname : hasExtension path.name (catalog.excluding names).settings.extensions = .ok true :=
    hextension
  rw [isRequirable_of_isFile hfile, hname]
  rfl

/--
Exclude patterns see a file by its way from the first root that holds it, and
from no other.  This root is the deepest exactly if no later one is deeper, and
the one by which candidates are placed if in addition no longer root is cut
off.  The deepest root is the same in every order of the roots.  If the first
one is, too, the file may be imported alike; and if the file may be imported alike
whatever is excluded, the first root is the same.
-/
theorem isRequirable_byFirstRoot (hroots : ∀ root ∈ catalog.settings.roots, root.IsNormal)
    (hpath : path.IsNormal) (hbelow : ∃ root ∈ catalog.settings.roots, root.holds path = true) :
    ∃ first deepest, path.firstRoot? catalog.settings.roots = some first ∧
      path.deepestRoot? catalog.settings.roots = some deepest ∧
      (∀ root, catalog.IsKeyedBy root path ↔ root = first) ∧
      (first = deepest ↔ ∀ root ∈ catalog.settings.roots, root.holds path = true →
        root.segments.length ≤ first.segments.length) ∧
      (path.longestRoot? catalog.settings.roots = some first ↔
        first = deepest ∧ path.CutOffIsShorter catalog.settings.roots) ∧
      ∀ order (h : order.Perm catalog.settings.roots),
        path.deepestRoot? order = some deepest ∧
        ∃ other, path.firstRoot? order = some other ∧
          (other = first → ∀ tree current,
            (catalog.reordered order h).isRequirable tree current path =
              catalog.isRequirable tree current path) ∧
          ∀ tree current, tree.isFile current path = .ok true →
            hasExtension path.name catalog.settings.extensions = .ok true →
            (∀ names, ((catalog.reordered order h).excluding names).isRequirable tree current path =
              (catalog.excluding names).isRequirable tree current path) →
            other = first := by
  obtain ⟨first, hfirst⟩ := Path.exists_firstRoot? hbelow
  obtain ⟨root, hroot, hholds⟩ := hbelow
  have hkeyed := isKeyedBy_firstRoot? hfirst
  obtain ⟨deepest, hdeepest⟩ := Path.exists_deepestRoot? hroot hholds
  refine ⟨first, deepest, hfirst, hdeepest,
    fun root => ⟨fun h => h.unique hpath.isProper hkeyed, ?_⟩,
    Path.firstRoot?_eq_deepest_iff hfirst hdeepest,
    Path.longestRoot?_eq_first_iff hroots hpath hfirst hdeepest, fun order h => ?_⟩
  · rintro rfl
    exact hkeyed
  have hdeepestOrder := (Path.deepestRoot?_eq_of_perm h).trans hdeepest
  obtain ⟨other, hother⟩ : ∃ other, path.firstRoot? order = some other :=
    Path.exists_firstRoot? ⟨root, h.mem_iff.mpr hroot, hholds⟩
  have hkeyedOrder : (catalog.reordered order h).IsKeyedBy other path := isKeyedBy_firstRoot? hother
  refine ⟨hdeepestOrder, other, hother, fun hsame tree current => ?_,
    fun tree current hfile hextension hagree => ?_⟩
  · subst hsame
    obtain ⟨position, hposition, hkey⟩ := hkeyed
    obtain ⟨way, hway, hkeyOrder⟩ := hkeyedOrder
    obtain rfl := Option.some.inj (hposition.symm.trans hway)
    exact isRequirable_eq_of_matchKey (by rfl) (by rfl) (hkeyOrder.trans hkey.symm) tree current
  · obtain ⟨way, hway, hkeyOrder⟩ := hkeyedOrder
    have hextensionOrder : hasExtension path.name
        (catalog.reordered order h).settings.extensions = .ok true := hextension
    -- of all that may be excluded, the position below the other root alone decides
    have halike := hagree fun key => key == Path.wayText way
    rw [isRequirable_excluding hfile hextensionOrder, isRequirable_excluding hfile hextension,
      hkeyOrder] at halike
    have hkey : catalog.matchKey path = Path.wayText way := by simpa using halike
    exact IsKeyedBy.unique hpath.isProper ⟨way, hway, hkey⟩ hkeyed

def layeredSettings : Settings where
  roots := [⟨.root, ["app".toList]⟩, ⟨.root, ["app".toList, "css".toList]⟩, ⟨.root, ["lib".toList]⟩]
  rootPath := ⟨.root, []⟩
  extensions := Settings.defaultExtensions.map .text
  prefixes := Settings.defaultPrefixes.map .text
  marker := .text Settings.defaultMarker
  excludes := [.text "/x.scss".toList]
  bindings := []
  roots_isAbsolute := by simp [Path.isAbsolute]
  rootPath_isAbsolute := Path.isAbsolute_root

def layeredCatalog : Catalog where
  settings := layeredSettings
  excluded := some
    (Ignore.Spec.excludes ⟨[⟨true, (Ignore.patternParts? "/x.scss".toList).getD []⟩]⟩)
  engine := Template.handlebars

def layeredTree : FileTree :=
  FileTree.empty.put ⟨.root, []⟩ (.ofText "/app/css/x.scss".toList) (.file ⟨#[]⟩)

theorem isNormal_layeredRoots : ∀ root ∈ layeredCatalog.settings.roots, root.IsNormal := by
  simp only [layeredCatalog, layeredSettings, List.forall_mem_cons]
  exact ⟨⟨rfl, Path.isProper_ofText "/app".toList, by cbv⟩,
    ⟨rfl, Path.isProper_ofText "/app/css".toList, by cbv⟩,
    ⟨rfl, Path.isProper_ofText "/lib".toList, by cbv⟩, List.forall_mem_nil _⟩

theorem isNormal_layeredFile : (Path.ofText "/app/css/x.scss".toList).IsNormal :=
  ⟨rfl, Path.isProper_ofText _, by cbv⟩

def libraryFirst : List Path :=
  [⟨.root, ["lib".toList]⟩, ⟨.root, ["app".toList]⟩, ⟨.root, ["app".toList, "css".toList]⟩]

theorem libraryFirst_perm : libraryFirst.Perm layeredCatalog.settings.roots := by decide

theorem isRequirable_libraryFirst :
    (layeredCatalog.reordered libraryFirst libraryFirst_perm).isRequirable layeredTree ⟨.root, []⟩
        (.ofText "/app/css/x.scss".toList) =
      layeredCatalog.isRequirable layeredTree ⟨.root, []⟩ (.ofText "/app/css/x.scss".toList) ∧
    layeredCatalog.IsKeyedBy (.ofText "/app".toList) (.ofText "/app/css/x.scss".toList) := by
  obtain ⟨first, deepest, hfirst, -, hkeyed, -, -, horder⟩ :=
    isRequirable_byFirstRoot isNormal_layeredRoots isNormal_layeredFile
      ⟨⟨.root, ["app".toList]⟩, List.mem_cons_self, by cbv⟩
  obtain rfl : .ofText "/app".toList = first := Option.some.inj (.trans (by cbv) hfirst)
  obtain ⟨-, other, hother, halike, -⟩ := horder libraryFirst libraryFirst_perm
  obtain rfl : .ofText "/app".toList = other := Option.some.inj (.trans (by cbv) hother)
  exact ⟨halike rfl layeredTree ⟨.root, []⟩, (hkeyed _).mpr rfl⟩

def deepestFirst : List Path :=
  [⟨.root, ["app".toList, "css".toList]⟩, ⟨.root, ["app".toList]⟩, ⟨.root, ["lib".toList]⟩]

theorem deepestFirst_perm : deepestFirst.Perm layeredCatalog.settings.roots := by decide

/-- In one order a file is seen from above the deepest root, and may be imported. -/
theorem isRequirable_deepestFirst :
    ofSettings .standard layeredSettings = .ok layeredCatalog ∧
      (∀ root ∈ layeredCatalog.settings.roots, root.IsNormal) ∧
      (Path.ofText "/app/css/x.scss".toList).IsNormal ∧
      (Path.ofText "/app/css/x.scss".toList).deepestRoot? layeredCatalog.settings.roots =
        some (.ofText "/app/css".toList) ∧
      (Path.ofText "/app/css".toList).below? (.ofText "/app/css/x.scss".toList) =
        some ["x.scss".toList] ∧
      layeredCatalog.matchKey (.ofText "/app/css/x.scss".toList) = "css/x.scss".toList ∧
      layeredCatalog.isRequirable layeredTree ⟨.root, []⟩ (.ofText "/app/css/x.scss".toList) =
        .ok true ∧
      (layeredCatalog.reordered deepestFirst deepestFirst_perm).matchKey
        (.ofText "/app/css/x.scss".toList) = "x.scss".toList ∧
      (layeredCatalog.reordered deepestFirst deepestFirst_perm).isRequirable layeredTree
        ⟨.root, []⟩ (.ofText "/app/css/x.scss".toList) = .ok false := by
  refine ⟨rfl, isNormal_layeredRoots, isNormal_layeredFile, ?_, ?_, ?_, ?_, ?_, ?_⟩ <;> cbv

end Catalog

end Stylesheets
