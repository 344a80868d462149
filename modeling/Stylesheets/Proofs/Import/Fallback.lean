import Stylesheets.Proofs.Import.Probes
import Stylesheets.Proofs.Import.Search

/-!
# What a parent adds to a search

The candidates of an import as it is spelled come last in every search for it.
A parent only puts candidates before them, so it can lead to another file but
never loses one that is found without it.
-/

namespace Stylesheets

namespace Scope

variable (scope : Scope) (spelling directory : Text) (parent : Option Text) (prefixes : List Text)

/-- The candidates that a parent puts before those of the import as it is spelled. -/
def ahead : List Text :=
  (scope.searchPaths (Spelling.directory spelling) parent).dropLast.flatMap
    (candidatesIn prefixes (Spelling.fileName spelling))

theorem searchPaths_cases :
    scope.searchPaths directory parent = [directory] ∨
      ∃ beside, scope.searchPaths directory parent = [beside, directory] := by
  cases parent with
  | none => exact .inl rfl
  | some file =>
      simp only [searchPaths]
      split
      · exact .inl rfl
      · exact .inr ⟨_, rfl⟩

theorem candidates_eq_append :
    scope.candidates spelling parent prefixes =
      scope.ahead spelling parent prefixes ++ scope.candidates spelling none prefixes := by
  unfold candidates ahead
  rcases scope.searchPaths_cases (Spelling.directory spelling) parent with
    hsearch | ⟨beside, hsearch⟩
  · rw [hsearch]
    rfl
  · rw [hsearch, ← List.flatMap_append]
    rfl

theorem ahead_eq_nil_or_length :
    scope.ahead spelling parent prefixes = [] ∨
      (scope.ahead spelling parent prefixes).length = prefixes.length := by
  unfold ahead
  rcases scope.searchPaths_cases (Spelling.directory spelling) parent with
    hsearch | ⟨beside, hsearch⟩
  · rw [hsearch]
    exact .inl rfl
  · rw [hsearch]
    exact .inr (by simp [candidatesIn])

end Scope

namespace Search

variable (tryPaths : Text → List Path) (requirable : Path → Bool)

theorem stopsAt_deciding : stopsAt (.deciding tryPaths requirable) = requirable := by
  funext path
  cases hpath : requirable path <;> simp [stopsAt, Source.deciding, hpath]

theorem outcome_deciding (candidates : List Text) :
    (overCandidates (.deciding tryPaths requirable) candidates).outcome =
      .ok ((candidates.flatMap tryPaths).find? requirable) := by
  have hends := overCandidates_spec (.deciding tryPaths requirable) candidates
  rw [stopsAt_deciding] at hends
  cases hfirst : (candidates.flatMap (Source.deciding tryPaths requirable).tryPaths).find?
      requirable with
  | none =>
      rw [hfirst] at hends
      exact hends.trans (congrArg Except.ok hfirst.symm)
  | some path =>
      rw [hfirst] at hends
      exact hends.1.trans (congrArg Except.ok hfirst.symm)

end Search

namespace Resolver

variable (scope : Scope) (tryPaths : Text → List Path) (requirable : Path → Bool)
  (prefixes : List Text) (spelling : Text) (parent : Option Text)

theorem find_deciding :
    find ⟨scope, .deciding tryPaths requirable, prefixes⟩ spelling parent =
      .ok ((((scope.candidates spelling parent prefixes).flatMap tryPaths).find? requirable).map
        scope.rootPath.append) := by
  change Except.map _ (Search.overCandidates (.deciding tryPaths requirable)
    (scope.candidates spelling parent prefixes)).outcome = _
  rw [Search.outcome_deciding]
  rfl

/--
A parent puts nothing or one candidate for every prefix before the candidates
of the import as it is spelled.  The search finds the first file that they lead
to, and what it finds without a parent if they lead to none.
-/
theorem find_withParent :
    let resolver : Resolver := ⟨scope, .deciding tryPaths requirable, prefixes⟩
    ∃ ahead, resolver.candidates spelling parent = ahead ++ resolver.candidates spelling none ∧
      (ahead = [] ∨ ahead.length = prefixes.length) ∧
      resolver.find spelling parent =
        (resolver.find spelling none).map
          (((ahead.flatMap tryPaths).find? requirable).map scope.rootPath.append).or ∧
      (∀ path, resolver.find spelling none = .ok (some path) →
        ∃ found, resolver.find spelling parent = .ok (some found)) ∧
      ((∀ candidate ∈ ahead, ∀ path ∈ tryPaths candidate, requirable path = false) →
        resolver.find spelling parent = resolver.find spelling none) := by
  intro resolver
  have hfind : resolver.find spelling parent =
      (resolver.find spelling none).map
        ((((scope.ahead spelling parent prefixes).flatMap tryPaths).find? requirable).map
          scope.rootPath.append).or := by
    rw [find_deciding, find_deciding, scope.candidates_eq_append, List.flatMap_append,
      List.find?_append, Option.map_or]
    rfl
  refine ⟨_, scope.candidates_eq_append spelling parent prefixes,
    scope.ahead_eq_nil_or_length spelling parent prefixes, hfind, fun path hpath => ?_,
    fun hmisses => ?_⟩
  · rw [hfind, hpath]
    cases ((scope.ahead spelling parent prefixes).flatMap tryPaths).find? requirable with
    | none => exact ⟨path, rfl⟩
    | some other => exact ⟨scope.rootPath.append other, rfl⟩
  · have hnone : ((scope.ahead spelling parent prefixes).flatMap tryPaths).find? requirable =
        none := by
      simpa [List.find?_eq_none] using hmisses
    rw [hfind, hnone]
    cases resolver.find spelling none <;> rfl

def proj : Scope where
  roots := [.ofText "/proj/assets/css".toList, .ofText "/proj/vendor/css".toList]
  rootPath := .ofText "/proj".toList
  current := ⟨.root, []⟩

def mixins : Resolver :=
  ⟨proj, .deciding
    (fun candidate => [.ofText ("/proj/assets/css/".toList ++ candidate ++ ".scss".toList)])
    fun path => path == .ofText "/proj/assets/css/_mixins.scss".toList, [[], ['_']]⟩

/-- Beside the importing file there is none of the name, and the parent changes nothing. -/
theorem find_mixinsFromComponents :
    mixins.candidates "mixins".toList (some "/proj/assets/css/components/button.scss".toList) =
        ["components/mixins".toList, "components/_mixins".toList] ++
          mixins.candidates "mixins".toList none ∧
      mixins.find "mixins".toList (some "/proj/assets/css/components/button.scss".toList) =
        .ok (some (.ofText "/proj/assets/css/_mixins.scss".toList)) := by
  have hcandidates : mixins.candidates "mixins".toList
      (some "/proj/assets/css/components/button.scss".toList) =
        ["components/mixins".toList, "components/_mixins".toList] ++
          mixins.candidates "mixins".toList none := by
    cbv
  have hfind : mixins.find "mixins".toList none =
      .ok (some (.ofText "/proj/assets/css/_mixins.scss".toList)) := by
    cbv
  obtain ⟨ahead, hahead, -, -, -, hsame⟩ := find_withParent proj _ _ _ "mixins".toList
    (some "/proj/assets/css/components/button.scss".toList)
  obtain rfl := List.append_cancel_right (hahead.symm.trans hcandidates)
  exact ⟨hcandidates, (hsame (by decide +kernel)).trans hfind⟩

end Resolver

end Stylesheets
