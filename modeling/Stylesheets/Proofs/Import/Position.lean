import Stylesheets.Proofs.Import.Beside

/-!
# The position inside the deepest root

An import beside the importing file is searched at the position that this file
has inside the deepest root that holds it.  The way to this position climbs
only where a longer root that is cut off is taken instead.
-/

namespace Stylesheets.Scope

variable {scope : Scope} {parent spelling : Text}

theorem head?_searchPaths (hspelling : Spelling.isAbsolute spelling = false)
    (hbeside : (scope.parentDirectory parent).IsNormal)
    (hroot : (scope.holdingRoot (scope.parentDirectory parent)).IsNormal) :
    (scope.searchPaths (Spelling.directory spelling) (some parent)).head? =
      some (Spelling.join
        (Path.wayText (Path.wayBetween
          (scope.holdingRoot (scope.parentDirectory parent)).segments
          (scope.parentDirectory parent).segments))
        [Spelling.directory spelling]) := by
  rw [head?_searchPaths_eq_besidePath hspelling hbeside.isAbsolute hroot.isAbsolute, besidePath,
    way, hbeside.normalize_eq, hroot.normalize_eq]

/-- The way from the root that is taken climbs unless this root is the deepest that holds. -/
theorem way_from_longestRoot? {directory root longest : Path} {roots : List Path}
    (hroots : ∀ root ∈ roots, root.IsNormal) (hdirectory : directory.IsNormal)
    (hroot : root ∈ roots) (hholds : root.holds directory = true)
    (hlongest : directory.longestRoot? roots = some longest) :
    ∃ deepest, directory.deepestRoot? roots = some deepest ∧
      (deepest.below? directory =
          some (Path.wayBetween longest.segments directory.segments) ↔
        directory.CutOffIsShorter roots) ∧
      (Path.doubleDot ∉ Path.wayBetween longest.segments directory.segments ↔
        directory.CutOffIsShorter roots) := by
  have hiff := Path.longestRoot?_eq_deepestRoot?_iff hroots hdirectory
  obtain ⟨deepest, hdeepest⟩ := Path.exists_deepestRoot? hroot hholds
  refine ⟨deepest, hdeepest, ?_⟩
  have hbelow : ∀ {position : List Text}, deepest.below? directory = some position →
      Path.doubleDot ∉ position := by
    intro position hposition hdots
    have hdescend := Path.below?_eq_some_iff.mp hposition
    refine hdirectory.not_mem ?_
    rw [hdescend]
    exact List.mem_append_right _ hdots
  cases hlongestHolds : longest.holds directory with
  | true =>
      have hsame := Path.deepestRoot?_eq_of_holds hroots hdirectory hlongest hlongestHolds
      obtain rfl : deepest = longest := Option.some.inj (hdeepest.symm.trans hsame)
      obtain ⟨position, hposition⟩ := Option.isSome_iff_exists.mp hlongestHolds
      have hway : Path.wayBetween deepest.segments directory.segments = position := by
        rw [Path.below?_eq_some_iff.mp hposition]
        exact Path.wayBetween_append _ _
      have hshorter := hiff.mp (hlongest.trans hsame.symm)
      rw [hway]
      exact ⟨iff_of_true hposition hshorter, iff_of_true (hbelow hposition) hshorter⟩
  | false =>
      have hnot := Path.not_prefix_of_cutsName
        (Path.cutsName_of_longestRoot? hroots hdirectory hlongest hlongestHolds hroot hholds).2
      have hclimbs : ¬ Path.doubleDot ∉ Path.wayBetween longest.segments directory.segments :=
        fun hstays => hnot (Path.prefix_of_not_mem_wayBetween hstays)
      have hshadowed : ¬ directory.CutOffIsShorter roots := by
        intro hshorter
        have hsame := hiff.mpr hshorter
        have hdeepestHolds := (Path.of_argmax_filter_eq_some (hsame.symm.trans hlongest)).2.1
        simp [hlongestHolds] at hdeepestHolds
      exact ⟨iff_of_false (fun hposition => hclimbs (hbelow hposition)) hshadowed,
        iff_of_false hclimbs hshadowed⟩

/--
The root that is taken for a directory is the deepest that holds it, or the
default where none does, exactly if every root that is cut off is shorter than
one that holds the directory.  An import beside a file in such a directory is
then searched first at the position inside the deepest root; otherwise the way
to it climbs.
-/
theorem searchPaths_inDeepestRoot (hroots : ∀ root ∈ scope.roots, root.IsNormal)
    {directory : Path} (hdirectory : directory.IsNormal) :
    ((∀ fallback, directory.longestRoot scope.roots fallback =
        directory.deepestRoot scope.roots fallback) ↔
      directory.CutOffIsShorter scope.roots) ∧
    ∀ parent, scope.parentDirectory parent = directory →
      (∃ root ∈ scope.roots, root.holds directory = true) →
      ∀ spelling, Spelling.isAbsolute spelling = false →
        ∃ root way, directory.deepestRoot? scope.roots = some root ∧
          (scope.searchPaths (Spelling.directory spelling) (some parent)).head? =
            some (Spelling.join (Path.wayText way) [Spelling.directory spelling]) ∧
          (root.below? directory = some way ↔ directory.CutOffIsShorter scope.roots) ∧
          (Path.doubleDot ∉ way ↔ directory.CutOffIsShorter scope.roots) := by
  refine ⟨(Path.longestRoot_eq_deepestRoot_iff _ _).trans
    (Path.longestRoot?_eq_deepestRoot?_iff hroots hdirectory), ?_⟩
  rintro parent rfl ⟨held, hheld, hholds⟩ spelling hspelling
  have hstarts := (Path.startsWithRoot_iff_of_mem hroots hdirectory hheld).mpr (.inl hholds)
  obtain ⟨longest, hlongest⟩ := Path.exists_longestRoot? hheld hstarts
  have hroot : scope.holdingRoot (scope.parentDirectory parent) = longest := by
    rw [holdingRoot, Path.longestRoot, hlongest, Option.getD_some]
  obtain ⟨root, hdeepest, hposition, hclimb⟩ :=
    way_from_longestRoot? hroots hdirectory hheld hholds hlongest
  refine ⟨root, _, hdeepest, ?_, hposition, hclimb⟩
  have hnormal : (scope.holdingRoot (scope.parentDirectory parent)).IsNormal := by
    rw [hroot]
    exact hroots longest (Path.mem_of_longestRoot? hlongest)
  rw [head?_searchPaths hspelling hdirectory hnormal, hroot]

def stackedScope : Scope where
  roots := [.ofText "/r/a".toList, .ofText "/r/app".toList, .ofText "/r/app/css".toList]
  rootPath := .ofText "/r".toList
  current := ⟨.root, []⟩

theorem searchPaths_stackedRoots :
    (∀ fallback, (Path.ofText "/r/app/css/widgets".toList).longestRoot stackedScope.roots fallback =
      .ofText "/r/app/css".toList) ∧
      (stackedScope.searchPaths (Spelling.directory "shared/vars".toList)
        (some "/r/app/css/widgets/x.scss".toList)).head? = some "widgets/shared".toList := by
  have hroots : ∀ root ∈ stackedScope.roots, root.IsNormal := by
    simp only [stackedScope, List.forall_mem_cons]
    exact ⟨⟨rfl, Path.isProper_ofText _, by cbv⟩, ⟨rfl, Path.isProper_ofText _, by cbv⟩,
      ⟨rfl, Path.isProper_ofText _, by cbv⟩, List.forall_mem_nil _⟩
  have hdirectory : (Path.ofText "/r/app/css/widgets".toList).IsNormal :=
    ⟨rfl, Path.isProper_ofText _, by cbv⟩
  have hshorter : (Path.ofText "/r/app/css/widgets".toList).CutOffIsShorter stackedScope.roots := by
    unfold Path.CutOffIsShorter
    decide +kernel
  obtain ⟨hlongest, hsearch⟩ := searchPaths_inDeepestRoot hroots hdirectory
  obtain ⟨root, way, hdeepest, hfirst, hposition, -⟩ := hsearch "/r/app/css/widgets/x.scss".toList
    (by cbv) ⟨.ofText "/r/app/css".toList, by simp [stackedScope], by cbv⟩
    "shared/vars".toList (by decide)
  obtain rfl : root = .ofText "/r/app/css".toList :=
    Option.some.inj (hdeepest.symm.trans (by cbv))
  obtain rfl : way = ["widgets".toList] :=
    Option.some.inj ((hposition.mpr hshorter).symm.trans (by cbv))
  refine ⟨fun fallback => ?_, hfirst.trans (by cbv)⟩
  rw [hlongest.mpr hshorter, Path.deepestRoot, hdeepest, Option.getD_some]

def siblingScope : Scope where
  roots := [.ofText "/a".toList, .ofText "/a/cs".toList]
  rootPath := .ofText "/a".toList
  current := ⟨.root, []⟩

/-- The second root is cut off and longer than the first, which holds the directory. -/
theorem searchPaths_siblingRoot :
    (∀ root ∈ siblingScope.roots, root.IsNormal) ∧
      (Path.ofText "/a/css".toList).IsNormal ∧
      siblingScope.parentDirectory "/a/css/x.scss".toList = .ofText "/a/css".toList ∧
      (Path.ofText "/a/css".toList).deepestRoot? siblingScope.roots = some (.ofText "/a".toList) ∧
      (Path.ofText "/a".toList).below? (.ofText "/a/css".toList) = some ["css".toList] ∧
      siblingScope.holdingRoot (.ofText "/a/css".toList) = .ofText "/a/cs".toList ∧
      (Path.ofText "/a/cs".toList).holds (.ofText "/a/css".toList) = false ∧
      siblingScope.searchPaths (Spelling.directory "foo".toList) (some "/a/css/x.scss".toList) =
        ["../css".toList, ".".toList] := by
  refine ⟨?_, ⟨rfl, Path.isProper_ofText _, by cbv⟩, ?_, ?_, ?_, ?_, ?_, ?_⟩
  · simp only [siblingScope, List.forall_mem_cons]
    exact ⟨⟨rfl, Path.isProper_ofText _, by cbv⟩, ⟨rfl, Path.isProper_ofText _, by cbv⟩,
      List.forall_mem_nil _⟩
  all_goals cbv

end Stylesheets.Scope
