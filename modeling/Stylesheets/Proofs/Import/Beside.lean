import Stylesheets.Import.Candidate
import Stylesheets.Proofs.Path.Reduced
import Stylesheets.Proofs.Path.Root
import Stylesheets.Proofs.Path.Spelling
import Stylesheets.Proofs.Path.Ways

/-!
# Candidates beside the importing file

The candidates of the first search path, read from the root that is taken for
the importing file, are the files of that name beside it.  This does not depend
on which root is taken: where the importing file lies outside of it, the way
from the root climbs out first.
-/

namespace Stylesheets.Scope

variable {scope : Scope} {parent spelling : Text} {prefixes : List Text}

/-- The file beside the importing one that the spelling names under a prefix. -/
def neighbour (scope : Scope) (parent spelling start : Text) : Path :=
  (((scope.parentDirectory parent).append (.ofText (Spelling.directory spelling))).append
    (.ofText (start ++ Spelling.fileName spelling))).normalize

def placed (scope : Scope) (parent candidate : Text) : Path :=
  ((scope.holdingRoot (scope.parentDirectory parent)).append (.ofText candidate)).normalize

theorem isProper_parentDirectory (h : scope.rootPath.IsProper) (parent : Text) :
    (scope.parentDirectory parent).IsProper := fun segment hsegment =>
  (h.append (Path.isProper_ofText parent)) segment ((List.dropLast_sublist _).subset hsegment)

theorem anchor_parentDirectory (h : scope.rootPath.anchor = .root)
    (hparent : (Path.ofText parent).anchor ≠ .doubleRoot) :
    (scope.parentDirectory parent).anchor = .root := by
  change (scope.rootPath.append (.ofText parent)).anchor = .root
  unfold Path.append
  split
  · next habsolute =>
      cases hanchor : (Path.ofText parent).anchor with
      | relative => simp [Path.isAbsolute, hanchor] at habsolute
      | root => rfl
      | doubleRoot => exact absurd hanchor hparent
  · exact h

theorem isAbsolute_holdingRoot
    (hroots : ∀ root ∈ scope.rootPath :: scope.roots, root.IsNormal) (directory : Path) :
    (scope.holdingRoot directory).isAbsolute = true :=
  (hroots _ (Path.longestRoot_mem directory scope.roots scope.rootPath)).isAbsolute

theorem isAbsolute_parentDirectory (h : scope.rootPath.isAbsolute = true) (parent : Text) :
    (scope.parentDirectory parent).isAbsolute = true :=
  Path.isAbsolute_append h _

theorem isNormal_parentDirectory (h : scope.rootPath.IsNormal)
    (hparent : Path.doubleDot ∉ Path.steps parent) : (scope.parentDirectory parent).IsNormal :=
  (h.append_ofText hparent).parent

/-! ## The first search path -/

theorem searchPaths_of_relative {directory : Text}
    (h : Spelling.isAbsolute directory = false) (parent : Text) :
    scope.searchPaths directory (some parent) =
      let beside := scope.parentDirectory parent
      if beside = scope.holdingRoot beside then [directory]
      else
        [Spelling.join (Path.relativeTo scope.current beside (scope.holdingRoot beside))
            [directory],
          directory] := by
  simp [searchPaths, h]

/-- The way to the importing file from the root that is taken for it. -/
def way (scope : Scope) (parent : Text) : List Text :=
  Path.wayBetween (scope.holdingRoot (scope.parentDirectory parent)).normalize.segments
    (scope.parentDirectory parent).normalize.segments

def besidePath (scope : Scope) (parent spelling : Text) : Text :=
  Spelling.join (Path.wayText (scope.way parent)) [Spelling.directory spelling]

theorem ofText_besidePath (hspelling : Spelling.isAbsolute spelling = false)
    (hproper : (scope.parentDirectory parent).IsProper) :
    Path.ofText (scope.besidePath parent spelling) =
      ⟨.relative, scope.way parent ++ Path.steps (Spelling.directory spelling)⟩ := by
  have hdirectory : Spelling.isAbsolute (Spelling.directory spelling) = false := by
    rw [Spelling.isAbsolute_directory, hspelling]
  have hway := Path.ofText_wayText (Path.forall_mem_wayBetween
    (scope.holdingRoot (scope.parentDirectory parent)) hproper)
  rw [besidePath, Path.ofText_join _ hdirectory, way, hway, Path.append_ofText _ hdirectory]

theorem steps_besidePath (hspelling : Spelling.isAbsolute spelling = false)
    (hproper : (scope.parentDirectory parent).IsProper) :
    Path.steps (scope.besidePath parent spelling) =
      scope.way parent ++ Path.steps (Spelling.directory spelling) :=
  congrArg Path.segments (ofText_besidePath hspelling hproper)

theorem searchPaths_eq_besidePath (hspelling : Spelling.isAbsolute spelling = false)
    (hbeside : (scope.parentDirectory parent).isAbsolute = true)
    (hroot : (scope.holdingRoot (scope.parentDirectory parent)).isAbsolute = true) :
    (scope.searchPaths (Spelling.directory spelling) (some parent) =
        [scope.besidePath parent spelling] ∧
      scope.besidePath parent spelling = Spelling.directory spelling) ∨
    scope.searchPaths (Spelling.directory spelling) (some parent) =
      [scope.besidePath parent spelling, Spelling.directory spelling] := by
  have hdirectory : Spelling.isAbsolute (Spelling.directory spelling) = false := by
    rw [Spelling.isAbsolute_directory, hspelling]
  simp only [searchPaths_of_relative hdirectory, besidePath, way]
  generalize scope.parentDirectory parent = beside at *
  generalize scope.holdingRoot beside = root at *
  by_cases hsame : beside = root
  · subst hsame
    have hway : Path.wayBetween beside.normalize.segments beside.normalize.segments = [] := by
      simpa using Path.wayBetween_append beside.normalize.segments []
    have hjoin : Spelling.join (Path.wayText []) [Spelling.directory spelling] =
        Spelling.directory spelling := Spelling.join_dot (Spelling.directory_ne_nil spelling)
    rw [if_pos rfl, hway, hjoin]
    exact .inl ⟨rfl, rfl⟩
  · rw [if_neg hsame, Path.relativeTo, Path.absolute, Path.absolute,
      Path.append_of_isAbsolute hbeside, Path.append_of_isAbsolute hroot]
    exact .inr rfl

theorem head?_searchPaths_eq_besidePath (hspelling : Spelling.isAbsolute spelling = false)
    (hbeside : (scope.parentDirectory parent).isAbsolute = true)
    (hroot : (scope.holdingRoot (scope.parentDirectory parent)).isAbsolute = true) :
    (scope.searchPaths (Spelling.directory spelling) (some parent)).head? =
      some (scope.besidePath parent spelling) := by
  rcases searchPaths_eq_besidePath hspelling hbeside hroot with ⟨hsearch, -⟩ | hsearch
  · rw [hsearch, List.head?_cons]
  · rw [hsearch, List.head?_cons]

theorem searchPaths_beside {directory : Text} (hdirectory : Spelling.isAbsolute directory = false)
    (hproper : (scope.parentDirectory parent).IsProper)
    (hbeside : (scope.parentDirectory parent).isAbsolute = true)
    (hanchor : (scope.holdingRoot (scope.parentDirectory parent)).anchor =
      (scope.parentDirectory parent).anchor) :
    ∃ first rest, scope.searchPaths directory (some parent) = first :: rest ∧
      scope.placed parent first =
        ((scope.parentDirectory parent).append (.ofText directory)).normalize := by
  simp only [searchPaths_of_relative hdirectory, placed]
  generalize scope.parentDirectory parent = beside at *
  generalize scope.holdingRoot beside = root at *
  have hroot : root.isAbsolute = true := by rwa [Path.isAbsolute, hanchor]
  by_cases hsame : beside = root
  · subst hsame
    exact ⟨directory, [], if_pos rfl, rfl⟩
  · refine ⟨_, _, if_neg hsame, ?_⟩
    have hway := Path.normalize_append_relativeTo scope.current hbeside hroot hproper
      hanchor
    rw [Path.ofText_join _ hdirectory, ← Path.append_assoc]
    exact Path.normalize_append_congr hway _

theorem placed_join {base : Path} {directory file : Text}
    (hfile : Spelling.isAbsolute file = false)
    (hplaced : scope.placed parent directory = base.normalize) :
    scope.placed parent (Spelling.join directory [file]) =
      (base.append (.ofText file)).normalize := by
  rw [placed, Path.ofText_join _ hfile, ← Path.append_assoc]
  exact Path.normalize_append_congr hplaced _

theorem isAbsolute_prefixed {start : Text} (h : '/' ∉ start) (spelling : Text) :
    Spelling.isAbsolute (start ++ Spelling.fileName spelling) = false := by
  refine Spelling.isAbsolute_of_slash_not_mem ?_
  rw [List.mem_append, not_or]
  exact ⟨h, Spelling.not_mem_fileName spelling⟩

/--
The candidates of the first search path denote, prefix by prefix, the files of
that name beside the importing file, whether or not this file lies inside the
root from which they are read.
-/
theorem map_placed_candidates
    (hroots : ∀ root ∈ scope.rootPath :: scope.roots, root.anchor = .root ∧ root.IsProper)
    (hparent : (Path.ofText parent).anchor ≠ .doubleRoot)
    (hspelling : Spelling.isAbsolute spelling = false)
    (hprefixes : ∀ start ∈ prefixes, '/' ∉ start) :
    ((scope.candidates spelling (some parent) prefixes).take prefixes.length).map
        (scope.placed parent) =
      prefixes.map (scope.neighbour parent spelling) := by
  obtain ⟨hrootPath, hrootProper⟩ := hroots scope.rootPath List.mem_cons_self
  obtain ⟨hroot, -⟩ := hroots _ (Path.longestRoot_mem (scope.parentDirectory parent) scope.roots
    scope.rootPath)
  have hdirectory : Spelling.isAbsolute (Spelling.directory spelling) = false := by
    rw [Spelling.isAbsolute_directory, hspelling]
  have hbeside := anchor_parentDirectory hrootPath hparent
  obtain ⟨first, rest, hsearch, hfirst⟩ := searchPaths_beside hdirectory
    (isProper_parentDirectory hrootProper parent) (by simp [Path.isAbsolute, hbeside])
    (hroot.trans hbeside.symm)
  have htake : (scope.candidates spelling (some parent) prefixes).take prefixes.length =
      candidatesIn prefixes (Spelling.fileName spelling) first := by
    rw [candidates, hsearch, List.flatMap_cons]
    exact List.take_left' (by simp [candidatesIn])
  rw [htake, candidatesIn, List.map_map]
  refine List.map_congr_left fun start hstart => ?_
  exact placed_join (isAbsolute_prefixed (hprefixes start hstart) spelling) hfirst

def nestedScope : Scope where
  roots := [.ofText "/r/app".toList, .ofText "/r/app/css".toList]
  rootPath := .ofText "/r".toList
  current := ⟨.root, []⟩

theorem map_placed_candidates_outsideRoots :
    nestedScope.candidates "..//mixins/./foo".toList (some "../out//lib/./x.scss".toList)
        [[], ['_']] =
      ["../out/lib/..//mixins/./foo".toList, "../out/lib/..//mixins/./_foo".toList,
        "..//mixins/./foo".toList, "..//mixins/./_foo".toList] ∧
      ((nestedScope.candidates "..//mixins/./foo".toList (some "../out//lib/./x.scss".toList)
        [[], ['_']]).take 2).map (nestedScope.placed "../out//lib/./x.scss".toList) =
      [.ofText "/out/mixins/foo".toList, .ofText "/out/mixins/_foo".toList] := by
  have hroots : ∀ root ∈ nestedScope.rootPath :: nestedScope.roots,
      root.anchor = .root ∧ root.IsProper := by
    simp only [nestedScope, List.forall_mem_cons]
    exact ⟨⟨rfl, Path.isProper_ofText _⟩, ⟨rfl, Path.isProper_ofText _⟩,
      ⟨rfl, Path.isProper_ofText _⟩, List.forall_mem_nil _⟩
  have hplaced := @map_placed_candidates nestedScope "../out//lib/./x.scss".toList
    "..//mixins/./foo".toList [[], ['_']] hroots (by decide) (by decide) (by decide)
  exact ⟨by cbv, hplaced.trans (by cbv)⟩

end Stylesheets.Scope
