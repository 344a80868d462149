import Stylesheets.Proofs.Import.GlobGrammar
import Stylesheets.Proofs.Import.RecordedPaths

/-!
# Relative importing files

An import that names several files looks a relative importing file up like an
import.  An import that names one takes it below the root path instead.  Both
mean the same as long as the ways to the two directories are the same, which is
so unless the directory below the root path belongs to a root of its own.
-/

namespace Stylesheets

namespace Scope

variable {scope : Scope} {parent other spelling : Text}

theorem parentDirectory_text {file : Path} (habsolute : file.isAbsolute = true)
    (hproper : file.IsProper) : scope.parentDirectory file.text = file.parent := by
  rw [parentDirectory, Path.ofText_text hproper, Path.append_of_isAbsolute habsolute]

theorem besidePath_eq_iff (hspelling : Spelling.isAbsolute spelling = false)
    (hproper : (scope.parentDirectory parent).IsProper)
    (hother : (scope.parentDirectory other).IsProper) :
    scope.besidePath parent spelling = scope.besidePath other spelling ↔
      scope.way parent = scope.way other := by
  constructor
  · intro h
    have hsteps := congrArg Path.steps h
    rw [steps_besidePath hspelling hproper, steps_besidePath hspelling hother] at hsteps
    exact List.append_cancel_right hsteps
  · intro h
    rw [besidePath, besidePath, h]

theorem way_eq_steps_iff (hroots : ∀ root ∈ scope.rootPath :: scope.roots, root.IsNormal)
    (hrelative : Spelling.isAbsolute parent = false)
    (hname : Path.isStep (Spelling.fileName parent) = true)
    (hdots : Path.doubleDot ∉ Path.steps (Spelling.directory parent)) :
    scope.way parent = Path.steps (Spelling.directory parent) ↔
      (scope.holdingRoot (scope.parentDirectory parent)).segments = scope.rootPath.segments := by
  have hrootPath := hroots scope.rootPath List.mem_cons_self
  have hroot := hroots _ (Path.longestRoot_mem (scope.parentDirectory parent) scope.roots
    scope.rootPath)
  rw [← holdingRoot] at hroot
  have hbeside : (scope.parentDirectory parent).segments =
      scope.rootPath.segments ++ Path.steps (Spelling.directory parent) := by
    rw [parentDirectory, Path.append_ofText _ hrelative, Path.parent,
      ← Path.steps_directory_append parent,
      Path.steps_of_slash_not_mem (Spelling.not_mem_fileName parent), if_pos hname,
      ← List.append_assoc, List.dropLast_concat]
  -- Both ends of the way are normal, so it is read off the segments as they are.
  have hlevel : Path.doubleDot ∉ (scope.parentDirectory parent).segments := by
    rw [hbeside, List.mem_append, not_or]
    exact ⟨hrootPath.not_mem, hdots⟩
  rw [way, hroot.normalize_eq, Path.normalize_eq_self hlevel, Path.wayBetween_eq_iff hdots, hbeside,
    List.append_left_inj, eq_comm]

theorem way_text_eq {file root : Path} {position : List Text} (hfile : file.IsNormal)
    (hroot : root.IsNormal) (hsegments : file.parent.segments = root.segments ++ position)
    (htaken : scope.holdingRoot file.parent = root) : scope.way file.text = position := by
  have hlevel : Path.doubleDot ∉ file.parent.segments := fun hmem =>
    hfile.not_mem ((List.dropLast_sublist _).subset hmem)
  rw [way, parentDirectory_text hfile.isAbsolute hfile.isProper, htaken, hroot.normalize_eq,
    Path.normalize_eq_self hlevel, hsegments, Path.wayBetween_append]

end Scope

namespace Importer

variable {importer : Importer} {prefixes : List Text} {spelling parent : Text} {file : Path}

/-! ## Files beside the importing file -/

/-- The paths that are tried for a spelling in one of its search paths. -/
def pathsIn (importer : Importer) (prefixes : List Text) (spelling search : Text) : List Path :=
  (Scope.candidatesIn prefixes (Spelling.fileName spelling) search).flatMap
    importer.catalog.tryPaths

theorem triedPaths_eq_flatMap (parent : Option Text) :
    importer.triedPaths prefixes spelling parent =
      (importer.scope.searchPaths (Spelling.directory spelling) parent).flatMap
        (importer.pathsIn prefixes spelling) := by
  rw [triedPaths, Resolver.candidates, Scope.candidates, List.flatMap_assoc]
  rfl

/-- A search goes through the paths beside the importing file, then through those without it. -/
theorem find?_triedPaths
    (hroots : ∀ root ∈ importer.scope.rootPath :: importer.scope.roots, root.IsNormal)
    (hspelling : Spelling.isAbsolute spelling = false) (test : Path → Bool) :
    (importer.triedPaths prefixes spelling (some parent)).find? test =
      ((importer.pathsIn prefixes spelling (importer.scope.besidePath parent spelling)).find?
        test).or ((importer.triedPaths prefixes spelling none).find? test) := by
  have hrootPath := hroots importer.scope.rootPath List.mem_cons_self
  have hplain : importer.triedPaths prefixes spelling none =
      importer.pathsIn prefixes spelling (Spelling.directory spelling) := by
    rw [triedPaths_eq_flatMap, Scope.searchPaths, List.flatMap_singleton]
  rw [triedPaths_eq_flatMap, hplain]
  rcases Scope.searchPaths_eq_besidePath hspelling
      (Scope.isAbsolute_parentDirectory hrootPath.isAbsolute parent)
      (Scope.isAbsolute_holdingRoot hroots _) with ⟨hsearch, hsame⟩ | hsearch
  · -- With one search path nothing changes if it is gone through once more.
    rw [hsearch, List.flatMap_singleton, hsame, Option.or_self]
  · rw [hsearch, List.flatMap_cons, List.flatMap_singleton, List.find?_append]

theorem triedPaths_of_isAbsolute (hspelling : Spelling.isAbsolute spelling = true)
    (parent : Option Text) :
    importer.triedPaths prefixes spelling parent = importer.triedPaths prefixes spelling none := by
  rw [triedPaths_eq_flatMap, triedPaths_eq_flatMap]
  cases parent with
  | none => rfl
  | some parent => simp [Scope.searchPaths, Spelling.isAbsolute_directory, hspelling]

theorem find_eq_of_find?_eq {parent other : Option Text}
    (hprefixes : importer.naming.prefixes = prefixes.map .text)
    (h : (importer.triedPaths prefixes spelling parent).find?
        (Search.stopsAt (importer.resolverWith prefixes).source) =
      (importer.triedPaths prefixes spelling other).find?
        (Search.stopsAt (importer.resolverWith prefixes).source)) :
    importer.find spelling parent = importer.find spelling other := by
  cases hfirst : (importer.triedPaths prefixes spelling other).find?
      (Search.stopsAt (importer.resolverWith prefixes).source) with
  | none =>
      rw [hfirst] at h
      rw [(find_eq_none_iff hprefixes).mpr (find?_stopsAt_eq_none_iff.mp h),
        (find_eq_none_iff hprefixes).mpr (find?_stopsAt_eq_none_iff.mp hfirst)]
  | some path =>
      rw [hfirst] at h
      obtain ⟨hstops, hreaches⟩ := find?_stopsAt_eq_some_iff.mp h
      rw [find_of_reaches hprefixes hreaches hstops,
        find_of_reaches hprefixes (find?_stopsAt_eq_some_iff.mp hfirst).2 hstops]

section Beside

variable {other : Text} (hprefixes : importer.naming.prefixes = prefixes.map .text)
  (hroots : ∀ root ∈ importer.scope.rootPath :: importer.scope.roots, root.IsNormal)

include hprefixes hroots

theorem find_eq_of_way_eq
    (h : Spelling.isAbsolute spelling = true ∨
      importer.scope.way parent = importer.scope.way other) :
    importer.find spelling (some parent) = importer.find spelling (some other) := by
  refine find_eq_of_find?_eq hprefixes ?_
  cases hspelling : Spelling.isAbsolute spelling with
  | true => rw [triedPaths_of_isAbsolute hspelling, triedPaths_of_isAbsolute hspelling (some other)]
  | false =>
      have hway := h.resolve_left (by simp [hspelling])
      rw [find?_triedPaths hroots hspelling, find?_triedPaths hroots hspelling,
        Scope.besidePath, Scope.besidePath, hway]

theorem find_eq_of_misses (hspelling : Spelling.isAbsolute spelling = false)
    (h : ∀ path ∈ importer.pathsIn prefixes spelling (importer.scope.besidePath parent spelling),
      importer.Misses path) :
    importer.find spelling (some parent) = importer.find spelling none := by
  have hnone :
      (importer.pathsIn prefixes spelling (importer.scope.besidePath parent spelling)).find?
        (Search.stopsAt (importer.resolverWith prefixes).source) = none := by
    rw [List.find?_eq_none]
    exact fun path hpath hstops => stopsAt_iff.mp hstops (h path hpath)
  refine find_eq_of_find?_eq hprefixes ?_
  rw [find?_triedPaths hroots hspelling, hnone, Option.none_or]

end Beside

/-! ## Where a relative importing file lies -/

theorem exists_root_of_importingFile
    (hroots : ∀ root ∈ importer.catalog.settings.rootPath :: importer.catalog.settings.roots,
      root.IsNormal)
    (hplain : importer.HasPlainNames) (hrelative : Spelling.isAbsolute parent = false)
    (hname : Path.isStep (Spelling.fileName parent) = true)
    (hdots : Path.doubleDot ∉ Path.steps (Spelling.directory parent))
    (h : importer.find parent none = .ok (some file)) :
    file.IsNormal ∧ ∃ root ∈ importer.catalog.settings.roots,
      file.parent.segments = root.segments ++ Path.steps (Spelling.directory parent) := by
  have hrootsOnly := (List.forall_mem_cons.mp hroots).2
  have hnormal := (isFound_of_find hroots h).2.level hplain hdots fun _ hnone => by cases hnone
  obtain ⟨-, search, hsearch, start, hstart, htried⟩ := triesIn_of_find h
  obtain rfl := List.mem_singleton.mp hsearch
  have hslash : '/' ∉ start ++ Spelling.fileName parent := by
    rw [List.mem_append, not_or]
    exact ⟨hplain.prefixes start hstart, Spelling.not_mem_fileName parent⟩
  have hdirectory : Spelling.isAbsolute (Spelling.directory parent) = false := by
    rw [Spelling.isAbsolute_directory, hrelative]
  obtain ⟨root, hroot | ⟨-, habsolute⟩, -, hexact⟩ := Catalog.dropLast_of_mem_tryPaths
    (fun root hroot => (hrootsOnly root hroot).isProper) hplain.extensions hslash htried
  · refine ⟨hnormal, root, hroot, (hexact (Path.isStep_append_right start hname)).trans ?_⟩
    rw [Path.append_ofText _ hdirectory]
  · exact absurd (hdirectory.symm.trans habsolute) Bool.false_ne_true

/--
For a relative importing file a search by name finds what it finds for the file
that a glob import takes it for, if the ways to both are the same, which they
are exactly if the first search paths are, or if all paths that are tried beside
the one and beside the other are misses.  Where the file is below the root that
is taken for it and its name does not climb, the ways are the same exactly if
the root path is the root that is taken for its name.
-/
theorem find_fromImportingFile {tree : FileTree} {start : Path} {given : Setting → Option Value}
    (hstart : start.IsNormal)
    (hsettings : Settings.ofValues tree start given = .ok importer.catalog.settings)
    (hrelative : Spelling.isAbsolute parent = false)
    (hfile : importer.importingFile parent = .ok file) :
    (∀ spelling,
      Spelling.isAbsolute spelling = true ∨
          importer.scope.way parent = importer.scope.way file.text →
        importer.find spelling (some parent) = importer.find spelling (some file.text)) ∧
    (∀ spelling, Spelling.isAbsolute spelling = false →
      ((importer.scope.searchPaths (Spelling.directory spelling) (some parent)).head? =
          (importer.scope.searchPaths (Spelling.directory spelling) (some file.text)).head? ↔
        importer.scope.way parent = importer.scope.way file.text) ∧
      ∀ prefixes : List Text, importer.naming.prefixes = prefixes.map .text →
        (∀ beside, beside = parent ∨ beside = file.text →
          ∀ path ∈ importer.pathsIn prefixes spelling (importer.scope.besidePath beside spelling),
            importer.Misses path) →
        importer.find spelling (some parent) = importer.find spelling (some file.text)) ∧
    (importer.HasPlainNames → Path.isStep (Spelling.fileName parent) = true →
      Path.doubleDot ∉ Path.steps (Spelling.directory parent) →
        ∃ root ∈ importer.catalog.settings.roots,
          file.parent.segments = root.segments ++ Path.steps (Spelling.directory parent) ∧
          (importer.scope.holdingRoot file.parent = root →
            (importer.scope.way parent = importer.scope.way file.text ↔
              (importer.scope.holdingRoot (importer.scope.parentDirectory parent)).segments =
                importer.catalog.settings.rootPath.segments))) := by
  have hnormal := Settings.isNormal_of_ofValues hstart hsettings
  have hroots := List.forall_mem_cons.mpr hnormal
  obtain ⟨habsolute, -⟩ | ⟨-, found, hfind, rfl⟩ := importingFile_eq_ok_iff.mp hfile
  · exact absurd (hrelative.symm.trans habsolute) Bool.false_ne_true
  obtain ⟨prefixes, hprefixes⟩ := exists_prefixes_of_find hfind
  have hbeside : ∀ beside, (importer.scope.parentDirectory beside).IsProper :=
    Scope.isProper_parentDirectory hnormal.1.isProper
  have habsolute : ∀ beside, (importer.scope.parentDirectory beside).isAbsolute = true :=
    Scope.isAbsolute_parentDirectory hnormal.1.isAbsolute
  refine ⟨fun spelling => find_eq_of_way_eq hprefixes hroots,
    fun spelling hspelling => ⟨?_, fun prefixes hprefixes hmisses => ?_⟩,
    fun hplain hname hdots => ?_⟩
  · have hholding : ∀ directory, (importer.scope.holdingRoot directory).isAbsolute = true :=
      Scope.isAbsolute_holdingRoot hroots
    rw [Scope.head?_searchPaths_eq_besidePath hspelling (habsolute _) (hholding _),
      Scope.head?_searchPaths_eq_besidePath hspelling (habsolute _) (hholding _), Option.some.injEq,
      Scope.besidePath_eq_iff hspelling (hbeside _) (hbeside _)]
  · rw [find_eq_of_misses hprefixes hroots hspelling (hmisses _ (.inl rfl)),
      find_eq_of_misses hprefixes hroots hspelling (hmisses _ (.inr rfl))]
  · -- The file is found under a normal path, so the lookup leaves it as it is.
    obtain ⟨hlevel, root, hroot, hsegments⟩ :=
      exists_root_of_importingFile hroots hplain hrelative hname hdots hfind
    rw [hlevel.normalize_eq]
    refine ⟨root, hroot, hsegments, fun htaken => ?_⟩
    rw [Scope.way_text_eq hlevel (hnormal.2 root hroot) hsegments htaken]
    exact Scope.way_eq_steps_iff hroots hrelative hname hdots

def bundleTree : FileTree :=
  let put := fun (tree : FileTree) (path : String) =>
    tree.put ⟨.root, []⟩ (.ofText path.toList) (.file ⟨#[]⟩)
  put (put .empty "/r/app/vendor/x.scss") "/r/app/vendor/y.scss"

def bundleGiven (roots : List String) : Setting → Option Value
  | .roots => some (.list (roots.map fun root => .text root.toList))
  | .rootPath => some (.text "/r".toList)
  | .extensions => some (.list [.text ".scss".toList])
  | _ => none

def appSettings : Settings where
  roots := [⟨.root, ["r".toList, "app".toList]⟩]
  rootPath := ⟨.root, ["r".toList]⟩
  extensions := [.text ".scss".toList]
  prefixes := Settings.defaultPrefixes.map .text
  marker := .text Settings.defaultMarker
  excludes := []
  bindings := []
  roots_isAbsolute := List.forall_mem_singleton.mpr rfl
  rootPath_isAbsolute := rfl

def vendorSettings : Settings :=
  { appSettings with
    roots := [⟨.root, ["r".toList, "vendor".toList]⟩, ⟨.root, ["r".toList, "app".toList]⟩]
    roots_isAbsolute := by simp [Path.isAbsolute] }

def bundleImporter (settings : Settings) : Importer where
  catalog := ⟨settings, none, Template.handlebars⟩
  naming := .default
  tree := bundleTree
  current := ⟨.root, []⟩
  compiling := none

theorem ofValues_app :
    Settings.ofValues bundleTree ⟨.root, []⟩ (bundleGiven ["app"]) = .ok appSettings := by
  cbv

theorem find_fromAppFile :
    (bundleImporter appSettings).importingFile "vendor/x.scss".toList =
        .ok (.ofText "/r/app/vendor/x.scss".toList) ∧
      (bundleImporter appSettings).scope.way "vendor/x.scss".toList =
        (bundleImporter appSettings).scope.way (Path.ofText "/r/app/vendor/x.scss".toList).text ∧
      (bundleImporter appSettings).find "y".toList (some "vendor/x.scss".toList) =
        .ok (some (.ofText "/r/app/vendor/y.scss".toList)) := by
  have hfile : (bundleImporter appSettings).importingFile "vendor/x.scss".toList =
      .ok (.ofText "/r/app/vendor/x.scss".toList) := by
    cbv
  have hplain : (bundleImporter appSettings).HasPlainNames := by
    refine ⟨fun start hstart => ?_, by decide +kernel⟩
    have hprefixes : ∀ start ∈ Settings.defaultPrefixes, '/' ∉ start := by decide
    obtain ⟨held, hheld, hsame⟩ := List.mem_map.mp hstart
    exact Value.text.inj hsame ▸ hprefixes held hheld
  obtain ⟨hsame, -, hlayout⟩ := find_fromImportingFile
    (Path.isNormal_of_names Path.isAbsolute_root (List.forall_mem_nil _)) ofValues_app
    (by decide) hfile
  obtain ⟨root, hroot, -, hway⟩ := hlayout hplain (by decide +kernel) (by decide +kernel)
  obtain rfl := List.mem_singleton.mp hroot
  have hways := (hway (by decide +kernel)).mpr (by decide +kernel)
  exact ⟨hfile, hways, (hsame "y".toList (.inr hways)).trans (by cbv)⟩

/-- The added root is taken for the name of the importing file, and beside it there is nothing. -/
theorem find_besideOtherRoot :
    Settings.ofValues bundleTree ⟨.root, []⟩ (bundleGiven ["vendor", "app"]) = .ok vendorSettings ∧
      Spelling.isAbsolute "vendor/x.scss".toList = false ∧
      Glob.isGlob "y".toList = false ∧
      (bundleImporter vendorSettings).importingFile "vendor/x.scss".toList =
        .ok (.ofText "/r/app/vendor/x.scss".toList) ∧
      (bundleImporter vendorSettings).find "y".toList (some "vendor/x.scss".toList) = .ok none ∧
      (bundleImporter vendorSettings).find "y".toList
          (some (Path.ofText "/r/app/vendor/x.scss".toList).text) =
        .ok (some (.ofText "/r/app/vendor/y.scss".toList)) := by
  refine ⟨by cbv, by decide, by decide +kernel, by cbv, by cbv, by cbv⟩

end Importer

end Stylesheets
