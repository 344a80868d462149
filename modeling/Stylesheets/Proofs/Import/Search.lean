import Mathlib
import Stylesheets.Import.Importer
import Stylesheets.Proofs.Path.Written
import Stylesheets.Template.Render

/-!
# What a search finds

A search goes through four nested lists: search paths, prefixes, roots and
extensions.  Its paths are numbered by four positions, and it finds the path
whose positions come first in lexicographic order among those that may be
imported.
-/

namespace Stylesheets

/-- The items are those at some index, and an earlier item has an earlier index. -/
structure Enumerates {ι β : Type} (items : List β) (item? : ι → Option β)
    (before : ι → ι → Prop) : Prop where
  mem_iff : ∀ item, item ∈ items ↔ ∃ index, item? index = some item
  first : ∀ (test : β → Bool) found, items.find? test = some found →
    ∃ index, item? index = some found ∧
      ∀ earlier, before earlier index →
        ∀ item, item? earlier = some item → test item = false

theorem enumerates_getElem? {β : Type} (items : List β) :
    Enumerates items (fun index : Nat => items[index]?) (· < ·) := by
  refine ⟨fun item => List.mem_iff_getElem?, fun test found h => ?_⟩
  obtain ⟨-, index, hindex, hfound, hearlier⟩ := List.find?_eq_some_iff_getElem.mp h
  refine ⟨index, List.getElem?_eq_some_iff.mpr ⟨hindex, hfound⟩, ?_⟩
  intro earlier hlt item hitem
  obtain ⟨hlength, rfl⟩ := List.getElem?_eq_some_iff.mp hitem
  simpa using hearlier earlier hlt

theorem enumerates_flatMap {α β ι : Type} (outer : List α) {inner : α → List β}
    {item? : α → ι → Option β} {before : ι → ι → Prop}
    (h : ∀ member ∈ outer, Enumerates (inner member) (item? member) before) :
    Enumerates (outer.flatMap inner)
      (fun index : Nat × ι => outer[index.1]?.bind fun member => item? member index.2)
      (Prod.Lex (· < ·) before) := by
  refine ⟨fun item => ?_, fun test found hfound => ?_⟩
  · rw [List.mem_flatMap]
    constructor
    · rintro ⟨member, hmember, hitem⟩
      obtain ⟨number, hnumber⟩ := List.mem_iff_getElem?.mp hmember
      obtain ⟨index, hindex⟩ := ((h member hmember).mem_iff item).mp hitem
      exact ⟨(number, index), by simp [hnumber, hindex]⟩
    · rintro ⟨⟨number, index⟩, hindex⟩
      obtain ⟨member, hnumber, hitem⟩ := Option.bind_eq_some_iff.mp hindex
      have hmember := List.mem_of_getElem? hnumber
      exact ⟨member, hmember, ((h member hmember).mem_iff item).mpr ⟨index, hitem⟩⟩
  · -- The first hit lies in the first of the inner lists that has any.
    rw [List.find?_flatMap] at hfound
    obtain ⟨missed, member, rest, rfl, hmember, hmissed⟩ :=
      List.findSome?_eq_some_iff.mp hfound
    obtain ⟨index, hindex, hearlier⟩ := (h member (by simp)).first test found hmember
    refine ⟨(missed.length, index), by simpa using hindex, ?_⟩
    rintro ⟨number, other⟩ hbefore item hitem
    obtain ⟨passed, hpassed, hitem⟩ := Option.bind_eq_some_iff.mp hitem
    cases hbefore with
    | left _ _ hlt =>
        rw [List.getElem?_append_left hlt] at hpassed
        have hpassedMem := List.mem_of_getElem? hpassed
        have hnone := hmissed passed hpassedMem
        rw [List.find?_eq_none] at hnone
        simpa using hnone item
          (((h passed (by simp [hpassedMem])).mem_iff item).mpr ⟨other, hitem⟩)
    | right _ hbefore =>
        obtain rfl : member = passed := by simpa using hpassed
        exact hearlier other hbefore item hitem

namespace Enumerates

variable {ι β : Type} {items : List β} {item? : ι → Option β} {before : ι → ι → Prop}

theorem find?_eq_none_iff (h : Enumerates items item? before) (test : β → Bool) :
    items.find? test = none ↔
      ∀ index item, item? index = some item → test item = false := by
  rw [List.find?_eq_none]
  constructor
  · intro hnone index item hitem
    simpa using hnone item ((h.mem_iff item).mpr ⟨index, hitem⟩)
  · intro hall item hmem
    obtain ⟨index, hitem⟩ := (h.mem_iff item).mp hmem
    simpa using hall index item hitem

theorem find?_eq_some_iff [Std.Trichotomous before] (h : Enumerates items item? before)
    (test : β → Bool) (found : β) :
    items.find? test = some found ↔
      ∃ index, item? index = some found ∧ test found = true ∧
        ∀ earlier, before earlier index →
          ∀ item, item? earlier = some item → test item = false := by
  constructor
  · intro hfound
    obtain ⟨index, hindex, hearlier⟩ := h.first test found hfound
    exact ⟨index, hindex, List.find?_some hfound, hearlier⟩
  · rintro ⟨index, hindex, hpasses, hearlier⟩
    cases hother : items.find? test with
    | none =>
        rw [(h.find?_eq_none_iff test).mp hother index found hindex] at hpasses
        cases hpasses
    | some other =>
        obtain ⟨index', hindex', hearlier'⟩ := h.first test other hother
        rcases trichotomous_of before index index' with hlt | rfl | hgt
        · rw [hearlier' index hlt found hindex] at hpasses
          cases hpasses
        · rw [← hindex', hindex]
        · have hpasses' := List.find?_some hother
          rw [hearlier index' hgt other hindex'] at hpasses'
          cases hpasses'

end Enumerates

/-! ## Where a search ends -/

namespace Search

def stopsAt (source : Source) (path : Path) : Bool :=
  match source.isRequirable path with
  | .ok false => false
  | _ => true

def resultAt (source : Source) (path : Path) : Except Fault (Option Path) :=
  (source.isRequirable path).map fun _ => some path

theorem overPaths_spec (source : Source) (otherwise : Search) (paths : List Path) :
    match paths.find? (stopsAt source) with
    | some path =>
        (overPaths source otherwise paths).outcome = resultAt source path ∧
          path ∈ (overPaths source otherwise paths).checked
    | none =>
        (overPaths source otherwise paths).outcome = otherwise.outcome ∧
          otherwise.checked ⊆ (overPaths source otherwise paths).checked := by
  induction paths with
  | nil => simp [overPaths]
  | cons path rest ih =>
      cases htest : source.isRequirable path with
      | error fault =>
          simp [overPaths, stopsAt, htest, checked, resultAt, Except.map]
      | ok answer =>
          cases answer with
          | true => simp [overPaths, stopsAt, htest, checked, resultAt, Except.map]
          | false =>
              rw [List.find?_cons_of_neg (by simp [stopsAt, htest])]
              cases hrest : rest.find? (stopsAt source) with
              | none =>
                  rw [hrest] at ih
                  simp only [overPaths, htest, after, checked, List.filterMap_cons]
                  exact ⟨ih.1, List.subset_cons_of_subset _ ih.2⟩
              | some found =>
                  rw [hrest] at ih
                  simp only [overPaths, htest, after, checked, List.filterMap_cons]
                  exact ⟨ih.1, List.mem_cons_of_mem _ ih.2⟩

theorem overCandidates_spec (source : Source) (candidates : List Text) :
    match (candidates.flatMap source.tryPaths).find? (stopsAt source) with
    | some path =>
        (overCandidates source candidates).outcome = resultAt source path ∧
          path ∈ (overCandidates source candidates).checked
    | none => (overCandidates source candidates).outcome = .ok none := by
  induction candidates with
  | nil => rfl
  | cons candidate rest ih =>
      have hpaths := overPaths_spec source (overCandidates source rest)
        (source.tryPaths candidate)
      rw [List.flatMap_cons, List.find?_append]
      cases hfound : (source.tryPaths candidate).find? (stopsAt source) with
      | some path =>
          rw [hfound] at hpaths
          exact hpaths
      | none =>
          rw [hfound] at hpaths
          rw [Option.none_or]
          cases hrest : (rest.flatMap source.tryPaths).find? (stopsAt source) with
          | some path =>
              rw [hrest] at ih
              exact ⟨hpaths.1.trans ih.1, hpaths.2 ih.2⟩
          | none =>
              rw [hrest] at ih
              exact hpaths.1.trans ih

end Search

abbrev Place := Nat × Nat × Nat × Nat

namespace Place

def Before : Place → Place → Prop :=
  Prod.Lex (· < ·) (Prod.Lex (· < ·) (Prod.Lex (· < ·) (· < ·)))

instance : Std.Trichotomous Before :=
  inferInstanceAs (Std.Trichotomous (Prod.Lex _ _))

theorem before_of_prefix {directory start start' root root' ending ending' : Nat}
    (h : start < start') :
    Before (directory, start, root, ending) (directory, start', root', ending') :=
  .right _ (.left _ _ h)

theorem before_of_root {directory start root root' ending ending' : Nat} (h : root < root') :
    Before (directory, start, root, ending) (directory, start, root', ending') :=
  .right _ (.right _ (.left _ _ h))

end Place

/-- What a candidate is taken below; an absolute one stands for itself, at one place. -/
def baseAt? (roots : List Path) (candidate : Text) (number : Nat) : Option Path :=
  if Spelling.isAbsolute candidate then
    if number = 0 then some (.ofText candidate) else none
  else roots[number]?.map fun root => root.append (.ofText candidate)

def endingAt? (extensions : List Text) (base : Path) : Nat → Option Path
  | 0 => some base
  | number + 1 => extensions[number]?.map fun extension => .ofText (base.text ++ extension)

namespace Importer

variable (importer : Importer) (prefixes extensions : List Text)
  (spelling : Text) (parent : Option Text)

def tryPathAt? (candidate : Text) (place : Nat × Nat) : Option Path :=
  (baseAt? importer.catalog.settings.roots candidate place.1).bind fun base =>
    endingAt? extensions base place.2

def pathIn? (directory : Text) (place : Nat × Nat × Nat) : Option Path :=
  prefixes[place.1]?.bind fun start =>
    importer.tryPathAt? extensions
      (Spelling.join directory [start ++ Spelling.fileName spelling]) place.2

def pathAt? (place : Place) : Option Path :=
  let directories := (importer.catalog.scope importer.current).searchPaths
    (Spelling.directory spelling) parent
  directories[place.1]?.bind fun directory =>
    importer.pathIn? prefixes extensions spelling directory place.2

def resolverWith : Resolver where
  scope := importer.catalog.scope importer.current
  source := importer.catalog.source importer.tree importer.current
  prefixes := prefixes

/-! ## The paths of a search -/

theorem getElem?_bases (roots : List Path) (candidate : Text) (number : Nat) :
    (if (Path.ofText candidate).isAbsolute then [Path.ofText candidate]
      else roots.map fun root => root.append (.ofText candidate))[number]? =
      baseAt? roots candidate number := by
  unfold baseAt?
  rw [Path.isAbsolute_ofText]
  split
  · cases number <;> simp
  · simp

theorem getElem?_extended (base : Path) (number : Nat) :
    (Catalog.extended (extensions.map .text) base)[number]? =
      endingAt? extensions base number := by
  cases number with
  | zero => rfl
  | succ number => simp [Catalog.extended, endingAt?, Function.comp_def]

variable {importer extensions}

theorem enumerates_tryPaths
    (hextensions : importer.catalog.settings.extensions = extensions.map .text)
    (candidate : Text) :
    Enumerates (importer.catalog.tryPaths candidate)
      (importer.tryPathAt? extensions candidate) (Prod.Lex (· < ·) (· < ·)) := by
  have hflat := enumerates_flatMap
    (if (Path.ofText candidate).isAbsolute then [Path.ofText candidate]
      else importer.catalog.settings.roots.map fun root => root.append (.ofText candidate))
    (fun base _ => enumerates_getElem? (Catalog.extended (extensions.map .text) base))
  simp only [getElem?_bases, getElem?_extended] at hflat
  rw [Catalog.tryPaths, hextensions]
  exact hflat

theorem enumerates_candidatesIn
    (hextensions : importer.catalog.settings.extensions = extensions.map .text)
    (directory : Text) :
    Enumerates
      ((Scope.candidatesIn prefixes (Spelling.fileName spelling) directory).flatMap
        importer.catalog.tryPaths)
      (importer.pathIn? prefixes extensions spelling directory)
      (Prod.Lex (· < ·) (Prod.Lex (· < ·) (· < ·))) := by
  rw [Scope.candidatesIn, List.flatMap_map]
  exact enumerates_flatMap _ fun start _ => enumerates_tryPaths hextensions
    (Spelling.join directory [start ++ Spelling.fileName spelling])

theorem enumerates_candidates
    (hextensions : importer.catalog.settings.extensions = extensions.map .text) :
    Enumerates
      (((importer.resolverWith prefixes).candidates spelling parent).flatMap
        importer.catalog.tryPaths)
      (importer.pathAt? prefixes extensions spelling parent) Place.Before := by
  rw [Resolver.candidates, Scope.candidates, List.flatMap_assoc]
  exact enumerates_flatMap _ fun directory _ =>
    enumerates_candidatesIn prefixes spelling hextensions directory

theorem hasExtension_texts (name : Text) (extensions : List Text) :
    Catalog.hasExtension name (extensions.map .text) =
      .ok (extensions.any fun extension => extension.isSuffixOf name) := by
  induction extensions with
  | nil => rfl
  | cons extension rest ih =>
      simp only [List.map_cons, Catalog.hasExtension, List.any_cons, ih]
      cases extension.isSuffixOf name <;> simp

theorem isRequirable_eq_map
    (hextensions : importer.catalog.settings.extensions = extensions.map .text) (path : Path) :
    importer.isRequirable path =
      (importer.tree.isFile importer.current path).map fun isFile =>
        isFile && extensions.any (fun extension => extension.isSuffixOf path.name) &&
          !importer.catalog.isExcluded path := by
  unfold isRequirable Catalog.isRequirable
  rw [hextensions, hasExtension_texts]
  cases importer.tree.isFile importer.current path with
  | error fault => rfl
  | ok isFile =>
      cases isFile with
      | false => rfl
      | true =>
          cases hany : extensions.any fun extension => extension.isSuffixOf path.name <;>
            simp [bind, Except.bind, pure, Except.pure, Except.map]

theorem isRequirable_eq_ok
    (hextensions : importer.catalog.settings.extensions = extensions.map .text)
    {path : Path} (hshort : importer.tree.find? importer.current path ≠ .error .nameTooLong) :
    ∃ answer, importer.isRequirable path = .ok answer := by
  have hfile : ∃ isFile, importer.tree.isFile importer.current path = .ok isFile := by
    unfold FileTree.isFile FileTree.leadsTo
    split <;> simp_all
  obtain ⟨isFile, hfile⟩ := hfile
  rw [isRequirable_eq_map hextensions, hfile]
  exact ⟨_, rfl⟩

theorem isAbsolute_of_mem_tryPaths {candidate : Text} {path : Path}
    (h : path ∈ importer.catalog.tryPaths candidate) : path.isAbsolute = true := by
  obtain ⟨base, hbase, hpath⟩ := List.mem_flatMap.mp h
  have habsolute : base.isAbsolute = true := by
    split at hbase
    · simp_all
    · obtain ⟨root, hroot, rfl⟩ := List.mem_map.mp hbase
      exact Path.isAbsolute_append (importer.catalog.settings.roots_isAbsolute root hroot) _
  rcases List.mem_cons.mp hpath with rfl | hextended
  · exact habsolute
  · obtain ⟨extension, -, rfl⟩ := List.mem_map.mp hextended
    exact Path.isAbsolute_ofText_append habsolute _

variable (importer extensions)

def IsHit (place : Place) (path : Path) : Prop :=
  importer.pathAt? prefixes extensions spelling parent place = some path ∧
    importer.isRequirable path = .ok true

def IsFirstHit (place : Place) (path : Path) : Prop :=
  importer.IsHit prefixes extensions spelling parent place path ∧
    ∀ earlier, Place.Before earlier place →
      ∀ other, ¬ importer.IsHit prefixes extensions spelling parent earlier other

variable {importer extensions prefixes spelling parent}

theorem IsFirstHit.unique {place other : Place} {path found : Path}
    (h : importer.IsFirstHit prefixes extensions spelling parent place path)
    (hother : importer.IsFirstHit prefixes extensions spelling parent other found) :
    path = found := by
  rcases trichotomous_of Place.Before place other with hlt | rfl | hgt
  · exact absurd h.1 (hother.2 place hlt path)
  · exact Option.some.inj (h.1.1.symm.trans hother.1.1)
  · exact absurd hother.1 (h.2 other hgt found)

theorem resolver_eq_ok (hprefixes : importer.naming.prefixes = prefixes.map .text) :
    importer.resolver = .ok (importer.resolverWith prefixes) := by
  rw [resolver, Settings.mapM_textOf_eq_ok_iff.mpr hprefixes]
  rfl

theorem find_eq_map (hprefixes : importer.naming.prefixes = prefixes.map .text) :
    importer.find spelling parent =
      ((importer.resolverWith prefixes).search spelling parent).outcome.map fun found =>
        found.map importer.catalog.settings.rootPath.append := by
  rw [find, resolver_eq_ok hprefixes]
  rfl

theorem IsFirstHit.no_prefix_before {directory start start' root root' ending ending' : Nat}
    {path found : Path} (hlt : start < start')
    (hhit : importer.IsHit prefixes extensions spelling parent
      (directory, start, root, ending) path) :
    ¬ importer.IsFirstHit prefixes extensions spelling parent
      (directory, start', root', ending') found := fun hfirst =>
  hfirst.2 _ (Place.before_of_prefix hlt) path hhit

theorem IsFirstHit.no_root_before {directory start root root' ending ending' : Nat}
    {path found : Path} (hlt : root < root')
    (hhit : importer.IsHit prefixes extensions spelling parent
      (directory, start, root, ending) path) :
    ¬ importer.IsFirstHit prefixes extensions spelling parent
      (directory, start, root', ending') found := fun hfirst =>
  hfirst.2 _ (Place.before_of_root hlt) path hhit

/-! ## Where the search for an import ends -/

section Reached

variable (importer prefixes spelling parent)

/-- The paths that a search goes through until it ends. -/
def triedPaths : List Path :=
  ((importer.resolverWith prefixes).candidates spelling parent).flatMap importer.catalog.tryPaths

def Misses (path : Path) : Prop := importer.isRequirable path = .ok false

/-- A search comes to this path: all paths before it are misses. -/
def Reaches (path : Path) : Prop :=
  ∃ before after, importer.triedPaths prefixes spelling parent = before ++ path :: after ∧
    ∀ earlier ∈ before, importer.Misses earlier

end Reached

variable {path : Path}

theorem stopsAt_iff :
    Search.stopsAt (importer.resolverWith prefixes).source path = true ↔
      ¬ importer.Misses path := by
  have hsource : (importer.resolverWith prefixes).source.isRequirable path =
      importer.isRequirable path := rfl
  rw [Search.stopsAt, Misses, hsource]
  cases importer.isRequirable path with
  | error fault => simp
  | ok answer => cases answer <;> simp

theorem find?_stopsAt_eq_some_iff :
    (importer.triedPaths prefixes spelling parent).find?
        (Search.stopsAt (importer.resolverWith prefixes).source) = some path ↔
      ¬ importer.Misses path ∧ importer.Reaches prefixes spelling parent path := by
  simp only [List.find?_eq_some_iff_append, stopsAt_iff, Reaches, Bool.not_eq_true',
    ← Bool.not_eq_true, not_not]

theorem find?_stopsAt_eq_none_iff :
    (importer.triedPaths prefixes spelling parent).find?
        (Search.stopsAt (importer.resolverWith prefixes).source) = none ↔
      ∀ path ∈ importer.triedPaths prefixes spelling parent, importer.Misses path := by
  simp only [List.find?_eq_none, stopsAt_iff, not_not]

/-- A search ends after misses only, or at the first path that is none. -/
theorem find_cases (hprefixes : importer.naming.prefixes = prefixes.map .text) (spelling : Text)
    (parent : Option Text) :
    ((∀ path ∈ importer.triedPaths prefixes spelling parent, importer.Misses path) ∧
        importer.find spelling parent = .ok none) ∨
      ∃ path, importer.Reaches prefixes spelling parent path ∧ ¬ importer.Misses path ∧
        path.isAbsolute = true ∧
        path ∈ ((importer.resolverWith prefixes).search spelling parent).checked ∧
        importer.find spelling parent = (importer.isRequirable path).map fun _ => some path := by
  have hends := Search.overCandidates_spec (importer.resolverWith prefixes).source
    ((importer.resolverWith prefixes).candidates spelling parent)
  rw [show ((importer.resolverWith prefixes).candidates spelling parent).flatMap
      (importer.resolverWith prefixes).source.tryPaths =
    importer.triedPaths prefixes spelling parent from rfl] at hends
  rw [find_eq_map hprefixes, Resolver.search]
  cases hfirst : (importer.triedPaths prefixes spelling parent).find?
      (Search.stopsAt (importer.resolverWith prefixes).source) with
  | none =>
      rw [hfirst] at hends
      exact .inl ⟨find?_stopsAt_eq_none_iff.mp hfirst, by rw [hends]; rfl⟩
  | some path =>
      rw [hfirst] at hends
      obtain ⟨hstops, hreaches⟩ := find?_stopsAt_eq_some_iff.mp hfirst
      obtain ⟨candidate, -, hmem⟩ := List.mem_flatMap.mp (List.mem_of_find?_eq_some hfirst)
      have habsolute := isAbsolute_of_mem_tryPaths hmem
      refine .inr ⟨path, hreaches, hstops, habsolute, hends.2, ?_⟩
      have htest : (importer.resolverWith prefixes).source.isRequirable path =
          importer.isRequirable path := rfl
      rw [hends.1, Search.resultAt, htest]
      cases importer.isRequirable path with
      | error fault => rfl
      | ok answer => simp [Except.map, Path.append_of_isAbsolute habsolute]

theorem IsHit.not_misses {place : Place}
    (h : importer.IsHit prefixes extensions spelling parent place path) :
    ¬ importer.Misses path := by
  intro hmiss
  cases h.2.symm.trans hmiss

theorem isFirstHit_of_reaches
    (hextensions : importer.catalog.settings.extensions = extensions.map .text)
    (h : importer.Reaches prefixes spelling parent path)
    (hrequirable : importer.isRequirable path = .ok true) :
    ∃ place, importer.IsFirstHit prefixes extensions spelling parent place path := by
  have hstops : ¬ importer.Misses path := by simp [Misses, hrequirable]
  obtain ⟨place, hplace, -, hearlier⟩ := ((enumerates_candidates prefixes spelling parent
    hextensions).find?_eq_some_iff _ _).mp (find?_stopsAt_eq_some_iff.mpr ⟨hstops, h⟩)
  refine ⟨place, ⟨hplace, hrequirable⟩, fun earlier hbefore other hhit => ?_⟩
  have hgoesOn := hearlier earlier hbefore other hhit.1
  rw [stopsAt_iff.mpr hhit.not_misses] at hgoesOn
  cases hgoesOn

theorem find_firstHit
    (hprefixes : importer.naming.prefixes = prefixes.map .text)
    (hextensions : importer.catalog.settings.extensions = extensions.map .text)
    (hshort : ∀ path ∈ ((importer.resolverWith prefixes).search spelling parent).checked,
      importer.tree.find? importer.current path ≠ .error .nameTooLong) :
    (importer.find spelling parent = .ok none ∧
      ∀ place path, ¬ importer.IsHit prefixes extensions spelling parent place path) ∨
    ∃ place path, importer.find spelling parent = .ok (some path) ∧
      path.isAbsolute = true ∧
      importer.IsFirstHit prefixes extensions spelling parent place path := by
  rcases find_cases hprefixes spelling parent with
    ⟨hmisses, hfind⟩ | ⟨path, hreaches, hstops, habsolute, hchecked, hfind⟩
  · refine .inl ⟨hfind, fun place path hhit => hhit.not_misses (hmisses path ?_)⟩
    exact ((enumerates_candidates prefixes spelling parent hextensions).mem_iff path).mpr
      ⟨place, hhit.1⟩
  · obtain ⟨answer, hanswer⟩ := isRequirable_eq_ok hextensions (hshort path hchecked)
    -- The search ends only at a fault or at a file, and this test is no fault.
    obtain rfl : answer = true := by
      cases answer with
      | true => rfl
      | false => exact absurd hanswer hstops
    obtain ⟨place, hplace⟩ := isFirstHit_of_reaches hextensions hreaches hanswer
    exact .inr ⟨place, path, by rw [hfind, hanswer]; rfl, habsolute, hplace⟩

/-- A search comes to the path at the first place, in lexicographic order, that leads to a
file, and to nothing exactly when no place does.  So an earlier prefix wins whatever the
roots are, and an earlier root wins whatever the endings are. -/
theorem find_lexicographic
    (hprefixes : importer.naming.prefixes = prefixes.map .text)
    (hextensions : importer.catalog.settings.extensions = extensions.map .text)
    (hshort : ∀ path ∈ ((importer.resolverWith prefixes).search spelling parent).checked,
      importer.tree.find? importer.current path ≠ .error .nameTooLong) :
    ∃ found, importer.find spelling parent = .ok found ∧
      (∀ path, found = some path ↔
        ∃ place, importer.IsFirstHit prefixes extensions spelling parent place path) ∧
      (found = none ↔
        ∀ place path, ¬ importer.IsHit prefixes extensions spelling parent place path) ∧
      (∀ path, found = some path →
        path.isAbsolute = true ∧ importer.isRequirable path = .ok true) ∧
      (∀ directory start start' root root' ending ending' path other, start < start' →
        importer.IsHit prefixes extensions spelling parent
          (directory, start, root, ending) path →
        ¬ importer.IsFirstHit prefixes extensions spelling parent
          (directory, start', root', ending') other) ∧
      (∀ directory start root root' ending ending' path other, root < root' →
        importer.IsHit prefixes extensions spelling parent
          (directory, start, root, ending) path →
        ¬ importer.IsFirstHit prefixes extensions spelling parent
          (directory, start, root', ending') other) := by
  rcases find_firstHit hprefixes hextensions hshort with
    ⟨hfind, hnone⟩ | ⟨place, path, hfind, habsolute, hfirst⟩
  · refine ⟨none, hfind, fun path => ?_, by simpa using hnone, by simp,
      fun _ _ _ _ _ _ _ _ _ => IsFirstHit.no_prefix_before,
      fun _ _ _ _ _ _ _ _ => IsFirstHit.no_root_before⟩
    constructor
    · intro h
      cases h
    · rintro ⟨place, hfirst⟩
      exact absurd hfirst.1 (hnone place path)
  · refine ⟨some path, hfind, fun other => ?_, ?_, ?_,
      fun _ _ _ _ _ _ _ _ _ => IsFirstHit.no_prefix_before,
      fun _ _ _ _ _ _ _ _ => IsFirstHit.no_root_before⟩
    · constructor
      · rintro ⟨⟩
        exact ⟨place, hfirst⟩
      · rintro ⟨place', hother⟩
        rw [hfirst.unique hother]
    · constructor
      · intro h
        cases h
      · intro hnone
        exact absurd hfirst.1 (hnone place path)
    · rintro other ⟨⟩
      exact ⟨habsolute, hfirst.1.2⟩

def twoRoots : FileTree :=
  let start : Path := ⟨.root, []⟩
  (FileTree.empty.put start (.ofText "/one/_a.scss".toList) (.file ⟨#[]⟩)).put start
    (.ofText "/two/a.scss".toList) (.file ⟨#[]⟩)

def twoRootsImporter : Importer where
  catalog := {
    settings := {
      roots := [⟨.root, ["one".toList]⟩, ⟨.root, ["two".toList]⟩]
      rootPath := ⟨.root, []⟩
      extensions := [".css".toList, ".scss".toList].map .text
      prefixes := Settings.defaultPrefixes.map .text
      marker := .text Settings.defaultMarker
      excludes := []
      bindings := []
      roots_isAbsolute := by simp [Path.isAbsolute]
      rootPath_isAbsolute := rfl }
    excluded := none
    engine := Template.handlebars }
  naming := .default
  tree := twoRoots
  current := ⟨.root, []⟩
  compiling := none

theorem find_plainNameInLaterRoot :
    twoRootsImporter.find "a".toList none =
        .ok (some ⟨.root, ["two".toList, "a.scss".toList]⟩) ∧
      ∃ place, twoRootsImporter.IsFirstHit Settings.defaultPrefixes
        [".css".toList, ".scss".toList] "a".toList none place
        ⟨.root, ["two".toList, "a.scss".toList]⟩ := by
  have hfiles : (((twoRootsImporter.resolverWith Settings.defaultPrefixes).search
      "a".toList none).checked.all fun path =>
        (twoRootsImporter.tree.isFile twoRootsImporter.current path).toBool) = true := by
    cbv
  have hshort : ∀ path ∈ ((twoRootsImporter.resolverWith Settings.defaultPrefixes).search
      "a".toList none).checked,
      twoRootsImporter.tree.find? twoRootsImporter.current path ≠ .error .nameTooLong := by
    intro path hmem hlong
    have hfile := List.all_eq_true.mp hfiles path hmem
    simp [FileTree.isFile, FileTree.leadsTo, hlong, Except.toBool] at hfile
  have hfind : twoRootsImporter.find "a".toList none =
      .ok (some ⟨.root, ["two".toList, "a.scss".toList]⟩) := by
    cbv
  obtain ⟨found, hfound, hplace, -⟩ := find_lexicographic (by rfl) (by rfl) hshort
  obtain rfl := Except.ok.inj (hfound.symm.trans hfind)
  exact ⟨hfind, (hplace _).mp rfl⟩

end Importer

end Stylesheets
