import Stylesheets.Proofs.Import.RecordedPaths
import Stylesheets.Proofs.Path.Inside

/-!
# Imports and their roots

A path that is tried for a relative import is built below a root, and without
double dots it stays there.  It leaves this root only where another root is cut
off for the importing file, so that the search path climbs, or where the
spelling leads nowhere, so that an extension lengthens the name of the root and
a prefix alone can make double dots.
-/

namespace Stylesheets

namespace Catalog

variable {catalog : Catalog} {root : Path} {candidate search name : Text}

/-- The paths that a candidate stands for below one root. -/
def builtFrom (catalog : Catalog) (root : Path) (candidate : Text) : List Path :=
  extended catalog.settings.extensions (root.append (.ofText candidate))

theorem tryPaths_of_relative (h : Spelling.isAbsolute candidate = false) :
    catalog.tryPaths candidate =
      catalog.settings.roots.flatMap fun root => catalog.builtFrom root candidate := by
  simp [tryPaths, Path.isAbsolute_ofText, h, builtFrom, List.flatMap_map]

theorem forall_mem_builtFrom {base : Path} {test : Path → Prop}
    (h : root.append (.ofText candidate) = base) :
    (∀ path ∈ catalog.builtFrom root candidate, test path) ↔
      test base ∧ ∀ extension ∈ catalog.settings.extensions,
        test (.ofText (base.text ++ extension.display)) := by
  simp [builtFrom, extended, h]

/-- A file of this name is looked for in the root itself and not beside or above it. -/
def KeepsInRoot (catalog : Catalog) (name : Text) : Prop :=
  name ≠ Path.doubleDot ∧
    (Path.isStep name = true ∨ ∀ extension ∈ catalog.settings.extensions, extension.display = [])

section

variable (hroot : root.IsNormal)
  (hextensions : ∀ extension ∈ catalog.settings.extensions, '/' ∉ extension.display)
  (hsearch : Spelling.isAbsolute search = false) (hlevel : Path.doubleDot ∉ Path.steps search)
  (hname : '/' ∉ name)

include hsearch hname in
theorem append_ofText_join (root : Path) :
    root.append (.ofText (Spelling.join search [name])) =
      root.descend (Path.steps search ++ Path.steps name) := by
  have hrelative := Spelling.isAbsolute_of_slash_not_mem hname
  rw [Path.append_ofText root ((Path.isAbsolute_join_name search hrelative).trans hsearch),
    Path.steps_join search hrelative]
  rfl

include hroot hextensions hsearch hlevel hname

theorem isInside_builtFrom_of_isStep (hstep : Path.isStep name = true) :
    (∀ path ∈ catalog.builtFrom root (Spelling.join search [name]), path.IsInside root) ↔
      root.segments = [] ∨ Path.steps search ≠ [] ∨ name ≠ Path.doubleDot := by
  have habsolute : (root.descend (Path.steps search)).isAbsolute = true := hroot.isAbsolute
  have hbase : root.append (.ofText (Spelling.join search [name])) =
      (root.descend (Path.steps search)).child name := by
    rw [append_ofText_join hsearch hname, Path.steps_of_slash_not_mem hname, if_pos hstep,
      Path.child_descend]
  have hproper : ((root.descend (Path.steps search)).child name).IsProper := by
    rw [← hbase]
    exact hroot.isProper.append (Path.isProper_ofText _)
  rw [forall_mem_builtFrom hbase, Path.isInside_child_iff hroot hlevel]
  refine and_iff_left_of_imp fun hkept extension hextension => ?_
  rw [Path.ofText_text_append habsolute hproper (hextensions extension hextension),
    Path.isInside_child_iff hroot hlevel]
  exact hkept.imp_right (.imp_right fun hdots => Path.append_ne_doubleDot hstep hdots _)

theorem isInside_builtFrom_of_not_isStep (hstep : Path.isStep name = false) :
    (∀ path ∈ catalog.builtFrom root (Spelling.join search [name]), path.IsInside root) ↔
      root.segments = [] ∨ Path.steps search ≠ [] ∨
        ∀ extension ∈ catalog.settings.extensions, extension.display = [] := by
  have hbase : root.append (.ofText (Spelling.join search [name])) =
      root.descend (Path.steps search) := by
    rw [append_ofText_join hsearch hname, Path.steps_of_not_isStep hstep, List.append_nil]
  have hproper : (root.descend (Path.steps search)).IsProper := by
    rw [← hbase]
    exact hroot.isProper.append (Path.isProper_ofText _)
  have hinside := Path.isInside_descend hroot hlevel
  rw [forall_mem_builtFrom hbase]
  by_cases hempty : Path.steps search = []
  · have hsame : root.descend (Path.steps search) = root := by simp [hempty, Path.descend]
    rw [hsame] at hinside ⊢
    have hiff : (∀ extension ∈ catalog.settings.extensions,
        (Path.ofText (root.text ++ extension.display)).IsInside root) ↔
          ∀ extension ∈ catalog.settings.extensions,
            root.segments = [] ∨ extension.display = [] :=
      forall₂_congr fun extension hextension =>
        Path.isInside_ofText_text_append_iff hroot (hextensions extension hextension)
    rw [hiff, and_iff_right hinside]
    simp [hempty, forall_or_left]
  · refine iff_of_true ⟨hinside, fun extension hextension => ?_⟩ (.inr (.inl hempty))
    exact Path.isInside_extended hroot hlevel hproper hempty (hextensions extension hextension)

theorem isInside_builtFrom_iff :
    (∀ path ∈ catalog.builtFrom root (Spelling.join search [name]), path.IsInside root) ↔
      root.segments = [] ∨ Path.steps search ≠ [] ∨ catalog.KeepsInRoot name := by
  cases hstep : Path.isStep name with
  | true =>
      rw [isInside_builtFrom_of_isStep hroot hextensions hsearch hlevel hname hstep]
      simp [KeepsInRoot, hstep]
  | false =>
      have hdots : name ≠ Path.doubleDot := by
        rintro rfl
        simp [Path.isStep, Path.doubleDot, Path.dot] at hstep
      rw [isInside_builtFrom_of_not_isStep hroot hextensions hsearch hlevel hname hstep]
      simp [KeepsInRoot, hstep, hdots]

end

theorem keepsInRoot_of_isStep (hstep : Path.isStep name = true) (hname : name ≠ Path.doubleDot)
    (start : Text) : catalog.KeepsInRoot (start ++ name) :=
  ⟨Path.append_right_ne_doubleDot hstep hname start,
    .inl (Path.isStep_append_right start hstep)⟩

end Catalog

/-! ## Search paths of an importing file -/

namespace Scope

variable {scope : Scope} {parent : Option Text} {file spelling search : Text}

theorem directory_mem_searchPaths (directory : Text) (parent : Option Text) :
    directory ∈ scope.searchPaths directory parent := by
  cases parent with
  | none => exact List.mem_singleton.mpr rfl
  | some file =>
      simp only [searchPaths]
      split <;> simp

theorem relative_of_mem_searchPaths
    (hroots : ∀ root ∈ scope.rootPath :: scope.roots, root.IsNormal)
    (hspelling : Spelling.isAbsolute spelling = false)
    (h : search ∈ scope.searchPaths (Spelling.directory spelling) parent) :
    Spelling.isAbsolute search = false ∧
      Path.steps (Spelling.directory spelling) <:+ Path.steps search := by
  have hdirectory : Spelling.isAbsolute (Spelling.directory spelling) = false := by
    rw [Spelling.isAbsolute_directory, hspelling]
  cases parent with
  | none =>
      rw [List.mem_singleton.mp h]
      exact ⟨hdirectory, List.suffix_rfl⟩
  | some file =>
      have hrootPath := hroots scope.rootPath List.mem_cons_self
      have hbeside := ofText_besidePath hspelling
        (isProper_parentDirectory hrootPath.isProper file)
      have hsearch : search = scope.besidePath file spelling ∨
          search = Spelling.directory spelling := by
        rcases searchPaths_eq_besidePath hspelling
            (isAbsolute_parentDirectory hrootPath.isAbsolute file)
            (isAbsolute_holdingRoot hroots _) with ⟨hsearch, -⟩ | hsearch
        · exact .inl (List.mem_singleton.mp (hsearch ▸ h))
        · simpa [hsearch] using h
      rcases hsearch with rfl | rfl
      · refine ⟨?_, ?_⟩
        · rw [← Path.isAbsolute_ofText, hbeside]
          rfl
        · have hsteps := congrArg Path.segments hbeside
          exact ⟨_, hsteps.symm⟩
      · exact ⟨hdirectory, List.suffix_rfl⟩

section

variable (hroots : ∀ root ∈ scope.rootPath :: scope.roots, root.IsNormal)
  (hbeside : (scope.parentDirectory file).IsNormal)
  (hheld : ∃ root ∈ scope.roots, root.holds (scope.parentDirectory file) = true)

include hroots hbeside hheld

theorem isBelowRoot_of_cutOffIsShorter
    (h : (scope.parentDirectory file).CutOffIsShorter scope.roots) : scope.IsBelowRoot file := by
  have hrootsOnly := (List.forall_mem_cons.mp hroots).2
  obtain ⟨root, hroot, hholds⟩ := hheld
  obtain ⟨deepest, hdeepest⟩ := Path.exists_deepestRoot? hroot hholds
  obtain ⟨hmem, hdeepestHolds, -⟩ := Path.deepestRoot?_eq_some_iff.mp hdeepest
  have hlongest := Path.longestRoot?_eq_of_cutOffIsShorter hrootsOnly hbeside h
  have hholding : scope.holdingRoot (scope.parentDirectory file) = deepest := by
    rw [holdingRoot, Path.longestRoot, hlongest, hdeepest, Option.getD_some]
  rw [IsBelowRoot, hholding, (hrootsOnly deepest hmem).normalize_eq, hbeside.normalize_eq]
  exact (Path.holds_iff.mp hdeepestHolds).2

theorem exists_not_isInside (hspelling : Spelling.isAbsolute spelling = false)
    (hlevel : Path.doubleDot ∉ Path.steps spelling)
    (h : ¬ (scope.parentDirectory file).CutOffIsShorter scope.roots) :
    ∃ root ∈ scope.roots, ∃ search ∈
        scope.searchPaths (Spelling.directory spelling) (some file),
      ∀ name, '/' ∉ name →
        ¬ (root.append (.ofText (Spelling.join search [name]))).IsInside root := by
  have hrootsOnly := (List.forall_mem_cons.mp hroots).2
  obtain ⟨root, hroot, hholds⟩ := hheld
  have hstarts := (Path.startsWithRoot_iff_of_mem hrootsOnly hbeside hroot).mpr (.inl hholds)
  obtain ⟨longest, hlongest⟩ := Path.exists_longestRoot? hroot hstarts
  have hnot : longest.holds (scope.parentDirectory file) = false := by
    rw [Bool.eq_false_iff]
    intro hlongestHolds
    have hdeepest := Path.deepestRoot?_eq_of_holds hrootsOnly hbeside hlongest hlongestHolds
    exact h (Path.cutOffIsShorter_of_eq hrootsOnly hbeside (hlongest.trans hdeepest.symm))
  obtain ⟨hanchor, hcut⟩ :=
    Path.cutsName_of_longestRoot? hrootsOnly hbeside hlongest hnot hroot hholds
  have hholding : scope.holdingRoot (scope.parentDirectory file) = longest := by
    rw [holdingRoot, Path.longestRoot, hlongest, Option.getD_some]
  have hdirectory : Spelling.isAbsolute (Spelling.directory spelling) = false := by
    rw [Spelling.isAbsolute_directory, hspelling]
  obtain ⟨first, rest, hsearch, hfirst⟩ := searchPaths_beside hdirectory hbeside.isProper
    hbeside.isAbsolute (by rw [hholding, hanchor])
  refine ⟨longest, Path.mem_of_longestRoot? hlongest, first, by simp [hsearch],
    fun name hname hinside => ?_⟩
  have hplaced := placed_join (Spelling.isAbsolute_of_slash_not_mem hname) hfirst
  rw [placed, hholding] at hplaced
  have hsteps : Path.doubleDot ∉ Path.steps (Spelling.directory spelling) := fun hdots =>
    hlevel ((Path.steps_directory_prefix spelling).subset hdots)
  rw [Path.IsInside, hplaced] at hinside
  refine Path.not_isInside_of_cutsName (hbeside.append_ofText hsteps) ?_ hname hinside
  rw [Path.append_ofText _ hdirectory]
  exact Path.cutsName_append hcut _

end

theorem mem_candidates_iff {prefixes : List Text} {candidate : Text} :
    candidate ∈ scope.candidates spelling parent prefixes ↔
      ∃ search ∈ scope.searchPaths (Spelling.directory spelling) parent, ∃ start ∈ prefixes,
        Spelling.join search [start ++ Spelling.fileName spelling] = candidate := by
  simp [candidates, candidatesIn]

end Scope

/-! ## Imports without double dots -/

namespace Importer

variable {importer : Importer} {prefixes : List Text} {spelling : Text} {parent : Option Text}

/-- A relative import without double dots, by no file or by one below a root. -/
structure IsLevel (importer : Importer) (spelling : Text) (parent : Option Text) : Prop where
  isRelative : Spelling.isAbsolute spelling = false
  level : Path.doubleDot ∉ Path.steps spelling
  levelFile : ∀ file, parent = some file → Path.doubleDot ∉ Path.steps file
  below : ∀ file, parent = some file → ∃ root ∈ importer.scope.roots,
    root.holds (importer.scope.parentDirectory file) = true

/-- No root that is cut off is taken, and a spelling that leads nowhere stays in the root. -/
structure LeadsBelow (importer : Importer) (prefixes : List Text) (spelling : Text)
    (parent : Option Text) : Prop where
  taken : ∀ file, parent = some file →
    (importer.scope.parentDirectory file).CutOffIsShorter importer.scope.roots
  named : Path.steps spelling = [] → ∀ root ∈ importer.scope.roots, root.segments ≠ [] →
    ∀ start ∈ prefixes, importer.catalog.KeepsInRoot (start ++ Spelling.fileName spelling)

/-- Every path that a candidate stands for lies inside the root that it is built from. -/
def StaysInside (importer : Importer) (prefixes : List Text) (spelling : Text)
    (parent : Option Text) : Prop :=
  ∀ candidate ∈ importer.scope.candidates spelling parent prefixes,
    ∀ root ∈ importer.scope.roots, ∀ path ∈ importer.catalog.builtFrom root candidate,
      path.IsInside root

section

variable (hroots : ∀ root ∈ importer.scope.rootPath :: importer.scope.roots, root.IsNormal)
  (hplain : importer.HasPlainNames) (hprefixes : importer.naming.prefixes = prefixes.map .text)
  (hlevel : importer.IsLevel spelling parent)

include hplain hprefixes in
theorem slash_not_mem_named {start : Text} (hstart : start ∈ prefixes) (spelling : Text) :
    '/' ∉ start ++ Spelling.fileName spelling := by
  rw [List.mem_append, not_or]
  refine ⟨hplain.prefixes start ?_, Spelling.not_mem_fileName spelling⟩
  rw [hprefixes]
  exact List.mem_map_of_mem hstart

include hroots hlevel

theorem isNormal_parentDirectory_of_isLevel {file : Text} (hfile : parent = some file) :
    (importer.scope.parentDirectory file).IsNormal :=
  Scope.isNormal_parentDirectory (hroots _ List.mem_cons_self) (hlevel.levelFile file hfile)

theorem not_mem_steps_of_taken
    (htaken : ∀ file, parent = some file →
      (importer.scope.parentDirectory file).CutOffIsShorter importer.scope.roots) {search : Text}
    (hsearch : search ∈ importer.scope.searchPaths (Spelling.directory spelling) parent) :
    Path.doubleDot ∉ Path.steps search := by
  have hdirectory : Path.doubleDot ∉ Path.steps (Spelling.directory spelling) := fun hdots =>
    hlevel.level ((Path.steps_directory_prefix spelling).subset hdots)
  exact Scope.not_mem_steps_of_mem_searchPaths hroots hdirectory
    (fun file hfile => Scope.isBelowRoot_of_cutOffIsShorter hroots
      (isNormal_parentDirectory_of_isLevel hroots hlevel hfile) (hlevel.below file hfile)
      (htaken file hfile)) hsearch

include hplain hprefixes

theorem isInside_builtFrom_iff_of_taken
    (htaken : ∀ file, parent = some file →
      (importer.scope.parentDirectory file).CutOffIsShorter importer.scope.roots)
    {search start : Text} {root : Path} (hstart : start ∈ prefixes)
    (hsearch : search ∈ importer.scope.searchPaths (Spelling.directory spelling) parent)
    (hroot : root ∈ importer.scope.roots) :
    (∀ path ∈ importer.catalog.builtFrom root
        (Spelling.join search [start ++ Spelling.fileName spelling]), path.IsInside root) ↔
      root.segments = [] ∨ Path.steps search ≠ [] ∨
        importer.catalog.KeepsInRoot (start ++ Spelling.fileName spelling) :=
  Catalog.isInside_builtFrom_iff (hroots root (List.mem_cons_of_mem _ hroot)) hplain.extensions
    (Scope.relative_of_mem_searchPaths hroots hlevel.isRelative hsearch).1
    (not_mem_steps_of_taken hroots hlevel htaken hsearch)
    (slash_not_mem_named hplain hprefixes hstart spelling)

theorem LeadsBelow.staysInside (h : importer.LeadsBelow prefixes spelling parent) :
    importer.StaysInside prefixes spelling parent := by
  intro candidate hcandidate root hroot
  obtain ⟨search, hsearch, start, hstart, rfl⟩ := Scope.mem_candidates_iff.mp hcandidate
  rw [isInside_builtFrom_iff_of_taken hroots hplain hprefixes hlevel h.taken hstart hsearch hroot]
  by_cases hempty : root.segments = []
  · exact .inl hempty
  refine .inr (or_iff_not_imp_left.mpr fun hsteps => ?_)
  -- The search path ends in the directory of the import, so only the file name can lead on.
  have hdirectory : Path.steps (Spelling.directory spelling) = [] := by
    have hsuffix := (Scope.relative_of_mem_searchPaths hroots hlevel.isRelative hsearch).2
    rwa [not_not.mp hsteps, List.suffix_nil] at hsuffix
  have hspelled := Path.steps_directory_append spelling
  rw [hdirectory, List.nil_append,
    Path.steps_of_slash_not_mem (Spelling.not_mem_fileName spelling)] at hspelled
  cases hstep : Path.isStep (Spelling.fileName spelling) with
  | true =>
      rw [if_pos hstep] at hspelled
      refine Catalog.keepsInRoot_of_isStep hstep ?_ start
      rintro hdots
      exact hlevel.level (by rw [← hspelled, hdots]; exact List.mem_singleton.mpr rfl)
  | false =>
      rw [hstep] at hspelled
      exact h.named hspelled.symm root hroot hempty start hstart

theorem leadsBelow_of_staysInside {start : Text} (hstart : start ∈ prefixes)
    (h : importer.StaysInside prefixes spelling parent) :
    importer.LeadsBelow prefixes spelling parent := by
  have htaken : ∀ file, parent = some file →
      (importer.scope.parentDirectory file).CutOffIsShorter importer.scope.roots := by
    rintro file rfl
    by_contra hcut
    obtain ⟨root, hroot, search, hsearch, hleaves⟩ := Scope.exists_not_isInside hroots
      (isNormal_parentDirectory_of_isLevel hroots hlevel rfl) (hlevel.below file rfl)
      hlevel.isRelative hlevel.level hcut
    refine hleaves _ (slash_not_mem_named hplain hprefixes hstart spelling) ?_
    exact h _ (Scope.mem_candidates_iff.mpr ⟨search, hsearch, start, hstart, rfl⟩) root hroot _
      List.mem_cons_self
  refine ⟨htaken, fun hnowhere root hroot hnonempty other hother => ?_⟩
  have hsearch : Spelling.directory spelling ∈ importer.scope.searchPaths _ parent :=
    Scope.directory_mem_searchPaths _ parent
  have hdirectory : Path.steps (Spelling.directory spelling) = [] := by
    rw [← List.prefix_nil, ← hnowhere]
    exact Path.steps_directory_prefix spelling
  have hinside := h _ (Scope.mem_candidates_iff.mpr ⟨_, hsearch, other, hother, rfl⟩) root hroot
  rw [isInside_builtFrom_iff_of_taken hroots hplain hprefixes hlevel htaken hother hsearch hroot]
    at hinside
  simpa [hnonempty, hdirectory] using hinside

end

/--
The paths that are tried for a relative import are built below the roots.  For
an import without double dots by no file, or by a file below a root, each of
them lies inside the root that it is built from exactly if no root that is cut
off is taken for the importing file, and a spelling that leads nowhere neither
gets double dots from a prefix nor lengthens the name of a root by an extension.
What is found then lies inside a root that it is built from.
-/
theorem find_insideRoot {tree : FileTree} {start : Path} {given : Setting → Option Value}
    (hstart : start.IsNormal)
    (hsettings : Settings.ofValues tree start given = .ok importer.catalog.settings)
    (hprefixes : importer.naming.prefixes = prefixes.map .text) (hplain : importer.HasPlainNames)
    (hlevel : importer.IsLevel spelling parent) :
    importer.candidates spelling parent =
        .ok (importer.scope.candidates spelling parent prefixes) ∧
      (∀ candidate ∈ importer.scope.candidates spelling parent prefixes,
        importer.catalog.tryPaths candidate =
          importer.scope.roots.flatMap fun root => importer.catalog.builtFrom root candidate) ∧
      (importer.StaysInside prefixes spelling parent ↔
        prefixes = [] ∨ importer.LeadsBelow prefixes spelling parent) ∧
      ∀ path, importer.find spelling parent = .ok (some path) →
        ∃ candidate ∈ importer.scope.candidates spelling parent prefixes,
          ∃ root ∈ importer.scope.roots, path ∈ importer.catalog.builtFrom root candidate ∧
            (importer.LeadsBelow prefixes spelling parent → path.IsInside root) := by
  have hroots := List.forall_mem_cons.mpr (Settings.isNormal_of_ofValues hstart hsettings)
  have hbuilt : ∀ candidate ∈ importer.scope.candidates spelling parent prefixes,
      importer.catalog.tryPaths candidate =
        importer.scope.roots.flatMap fun root => importer.catalog.builtFrom root candidate := by
    intro candidate hcandidate
    obtain ⟨search, hsearch, start, hstart, rfl⟩ := Scope.mem_candidates_iff.mp hcandidate
    refine Catalog.tryPaths_of_relative ?_
    rw [Path.isAbsolute_join_name search (Spelling.isAbsolute_of_slash_not_mem
      (slash_not_mem_named hplain hprefixes hstart spelling))]
    exact (Scope.relative_of_mem_searchPaths hroots hlevel.isRelative hsearch).1
  refine ⟨?_, hbuilt, ⟨fun hinside => ?_, ?_⟩, fun path hfind => ?_⟩
  · rw [candidates, resolver_eq_ok hprefixes]
    rfl
  · refine or_iff_not_imp_left.mpr fun hsome => ?_
    obtain ⟨first, hfirst⟩ := List.exists_mem_of_ne_nil prefixes hsome
    exact leadsBelow_of_staysInside hroots hplain hprefixes hlevel hfirst hinside
  · rintro (rfl | hleads)
    · intro candidate hcandidate
      simp [Scope.mem_candidates_iff] at hcandidate
    · exact hleads.staysInside hroots hplain hprefixes hlevel
  · obtain ⟨-, search, hsearch, named, hnamed, htried⟩ := triesIn_of_find hfind
    rw [hprefixes, List.mem_map_of_injective fun _ _ => Value.text.inj] at hnamed
    have hcandidate := Scope.mem_candidates_iff.mpr ⟨search, hsearch, named, hnamed, rfl⟩
    rw [hbuilt _ hcandidate] at htried
    obtain ⟨root, hroot, hpath⟩ := List.mem_flatMap.mp htried
    exact ⟨_, hcandidate, root, hroot, hpath, fun hleads =>
      hleads.staysInside hroots hplain hprefixes hlevel _ hcandidate root hroot path hpath⟩

def stackedGiven : Setting → Option Value
  | .roots => some (.list (["a", "a/cs", "a/css/in"].map fun root => .text root.toList))
  | .extensions => some (.list [.text ".scss".toList])
  | _ => none

def stackedTree : FileTree :=
  let put := fun (tree : FileTree) (path : String) =>
    tree.put ⟨.root, []⟩ (.ofText path.toList) (.file ⟨#[]⟩)
  ["/a.scss", "/css/foo.scss", "/a/css/in/w/shared.scss"].foldl put .empty

def stackedImporter : Importer where
  catalog := {
    settings := {
      roots := [⟨.root, ["a".toList]⟩, ⟨.root, ["a".toList, "cs".toList]⟩,
        ⟨.root, ["a".toList, "css".toList, "in".toList]⟩]
      rootPath := ⟨.root, []⟩
      extensions := [.text ".scss".toList]
      prefixes := Settings.defaultPrefixes.map .text
      marker := .text Settings.defaultMarker
      excludes := []
      bindings := []
      roots_isAbsolute := by simp [Path.isAbsolute]
      rootPath_isAbsolute := Path.isAbsolute_root }
    excluded := none
    engine := Template.handlebars }
  naming := .default
  tree := stackedTree
  current := ⟨.root, []⟩
  compiling := none

theorem ofValues_stackedGiven :
    Settings.ofValues stackedTree ⟨.root, []⟩ stackedGiven =
      .ok stackedImporter.catalog.settings := by
  cbv

theorem hasPlainNames_stackedImporter : stackedImporter.HasPlainNames where
  prefixes start hstart := by
    have hplain : ∀ start ∈ Settings.defaultPrefixes, '/' ∉ start := by decide
    exact hplain start ((List.mem_map_of_injective fun _ _ => Value.text.inj).mp hstart)
  extensions := by
    have hextensions : (stackedImporter.catalog.settings.extensions.all fun extension =>
        !extension.display.elem '/') = true := by
      cbv
    simpa using hextensions

theorem isLevel_stackedImporter {spelling : Text} {file : Text}
    (hspelling : Spelling.isAbsolute spelling = false ∧ Path.doubleDot ∉ Path.steps spelling)
    (hfile : Path.doubleDot ∉ Path.steps file)
    (hbelow : (stackedImporter.scope.roots.any fun root =>
      root.holds (stackedImporter.scope.parentDirectory file)) = true) :
    stackedImporter.IsLevel spelling (some file) where
  isRelative := hspelling.1
  level := hspelling.2
  levelFile other hother := by
    obtain rfl := Option.some.inj hother
    exact hfile
  below other hother := by
    obtain rfl := Option.some.inj hother
    exact List.any_eq_true.mp hbelow

/-- The file lies below two roots, and the directory of the import ends in a dot. -/
theorem find_insideDeeperRoot :
    stackedImporter.IsLevel "shared/.".toList (some "/a/css/in/w/x.scss".toList) ∧
      stackedImporter.StaysInside Settings.defaultPrefixes "shared/.".toList
        (some "/a/css/in/w/x.scss".toList) ∧
      stackedImporter.find "shared/.".toList (some "/a/css/in/w/x.scss".toList) =
        .ok (some (.ofText "/a/css/in/w/shared.scss".toList)) := by
  have hlevel := @isLevel_stackedImporter "shared/.".toList "/a/css/in/w/x.scss".toList
    ⟨by decide, by decide +kernel⟩ (by decide +kernel) (by cbv)
  have hleads : stackedImporter.LeadsBelow Settings.defaultPrefixes "shared/.".toList
      (some "/a/css/in/w/x.scss".toList) := by
    refine ⟨fun file hfile => ?_, fun hnowhere => absurd hnowhere (by decide +kernel)⟩
    obtain rfl := Option.some.inj hfile
    unfold Path.CutOffIsShorter
    decide +kernel
  have hstart := Path.isNormal_of_names Path.isAbsolute_root (List.forall_mem_nil _)
  have hstays := (find_insideRoot hstart ofValues_stackedGiven (by rfl)
    hasPlainNames_stackedImporter hlevel).2.2.1
  exact ⟨hlevel, hstays.mpr (.inr hleads), by cbv⟩

/-- A search path that climbs, and a spelling for the root: both finds lie in no root. -/
theorem find_outsideRoots :
    Settings.ofValues stackedTree ⟨.root, []⟩ stackedGiven =
        .ok stackedImporter.catalog.settings ∧
      stackedImporter.HasPlainNames ∧
      stackedImporter.IsLevel "foo".toList (some "/a/css/x.scss".toList) ∧
      stackedImporter.find "foo".toList (some "/a/css/x.scss".toList) =
        .ok (some (.ofText "/a/../css/foo.scss".toList)) ∧
      (∀ root ∈ stackedImporter.scope.roots,
        ¬ (Path.ofText "/a/../css/foo.scss".toList).IsInside root) ∧
      stackedImporter.IsLevel ".".toList none ∧
      stackedImporter.find ".".toList none = .ok (some (.ofText "/a.scss".toList)) ∧
      ∀ root ∈ stackedImporter.scope.roots, ¬ (Path.ofText "/a.scss".toList).IsInside root := by
  refine ⟨ofValues_stackedGiven, hasPlainNames_stackedImporter, ?_, by cbv, ?_, ?_, by cbv, ?_⟩
  · exact isLevel_stackedImporter ⟨by decide, by decide +kernel⟩ (by decide +kernel) (by cbv)
  · unfold Path.IsInside
    decide +kernel
  · refine ⟨by decide, by decide +kernel, ?_, ?_⟩
    all_goals
      intro file hfile
      cases hfile
  · unfold Path.IsInside
    decide +kernel

end Importer

end Stylesheets
