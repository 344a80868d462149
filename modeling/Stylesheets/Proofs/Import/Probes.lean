import Stylesheets.Import.Importer

/-!
# What a search asks for

A search leaves a trace of probes: which candidates it expanded and which paths
it tested, in the order in which it did.  The trace ends with the first path
that may be imported, so nothing behind it is asked for; without such a path
the search goes through everything.
-/

namespace Stylesheets

/-- A source that decides for every path whether it may be imported. -/
def Source.deciding (tryPaths : Text → List Path) (requirable : Path → Bool) : Source where
  tryPaths := tryPaths
  isRequirable := fun path => .ok (requirable path)

namespace Search

def afterAll (probes : List Probe) (search : Search) : Search :=
  { search with probes := probes ++ search.probes }

def exhausting (tryPaths : Text → List Path) (candidate : Text) : List Probe :=
  .expanded candidate :: (tryPaths candidate).map .tested

theorem after_afterAll (probe : Probe) (probes : List Probe) (search : Search) :
    (afterAll probes search).after probe = afterAll (probe :: probes) search := rfl

theorem afterAll_afterAll (first second : List Probe) (search : Search) :
    afterAll first (afterAll second search) = afterAll (first ++ second) search := by
  simp [afterAll]

section Deciding

variable (tryPaths : Text → List Path) (requirable : Path → Bool)

theorem overPaths_of_misses (otherwise : Search) {misses : List Path}
    (h : ∀ path ∈ misses, requirable path = false) (rest : List Path) :
    overPaths (.deciding tryPaths requirable) otherwise (misses ++ rest) =
      afterAll (misses.map .tested)
        (overPaths (.deciding tryPaths requirable) otherwise rest) := by
  induction misses with
  | nil => rfl
  | cons path misses ih =>
      obtain ⟨hpath, hmisses⟩ := List.forall_mem_cons.mp h
      have htest : (Source.deciding tryPaths requirable).isRequirable path = .ok false :=
        congrArg Except.ok hpath
      rw [List.cons_append, overPaths, htest]
      simp only [ih hmisses, after_afterAll, List.map_cons]

theorem overPaths_cons_of_hit (otherwise : Search) {path : Path} (h : requirable path = true)
    (rest : List Path) :
    overPaths (.deciding tryPaths requirable) otherwise (path :: rest) =
      ⟨[.tested path], .ok (some path)⟩ := by
  have htest : (Source.deciding tryPaths requirable).isRequirable path = .ok true :=
    congrArg Except.ok h
  rw [overPaths, htest]

theorem overCandidates_of_misses {misses : List Text}
    (h : ∀ candidate ∈ misses, ∀ path ∈ tryPaths candidate, requirable path = false)
    (rest : List Text) :
    overCandidates (.deciding tryPaths requirable) (misses ++ rest) =
      afterAll (misses.flatMap (exhausting tryPaths))
        (overCandidates (.deciding tryPaths requirable) rest) := by
  induction misses with
  | nil => rfl
  | cons candidate misses ih =>
      obtain ⟨hcandidate, hmisses⟩ := List.forall_mem_cons.mp h
      have hpaths := overPaths_of_misses tryPaths requirable
        (overCandidates (.deciding tryPaths requirable) (misses ++ rest)) hcandidate []
      rw [List.append_nil] at hpaths
      rw [List.cons_append, overCandidates]
      change (overPaths _ _ (tryPaths candidate)).after _ = _
      rw [hpaths, overPaths, ih hmisses, after_afterAll, afterAll_afterAll, List.flatMap_cons,
        exhausting]

/-! ## The first hit -/

/-- A path that may be imported, before which there are only misses: among the paths of its
own candidate and of all candidates before that. -/
structure HitsFirstAt (candidates before : List Text) (candidate : Text) (earlier : List Path)
    (path : Path) : Prop where
  candidates : before ++ [candidate] <+: candidates
  paths : earlier ++ [path] <+: tryPaths candidate
  misses : ∀ miss ∈ before.flatMap tryPaths ++ earlier, requirable miss = false
  hit : requirable path = true

variable {tryPaths requirable}

theorem exists_hitsFirstAt {candidates : List Text}
    (h : ∃ candidate ∈ candidates, ∃ path ∈ tryPaths candidate, requirable path = true) :
    ∃ before candidate earlier path,
      HitsFirstAt tryPaths requirable candidates before candidate earlier path := by
  have hcandidate : (candidates.find? fun candidate =>
      (tryPaths candidate).any requirable).isSome = true := by
    simpa [List.find?_isSome] using h
  obtain ⟨candidate, hfound⟩ := Option.isSome_iff_exists.mp hcandidate
  obtain ⟨hany, before, after, rfl, hbefore⟩ := List.find?_eq_some_iff_append.mp hfound
  obtain ⟨path, hpath⟩ := Option.isSome_iff_exists.mp
    ((List.find?_isSome (p := requirable)).mpr (List.any_eq_true.mp hany))
  obtain ⟨hhit, earlier, later, hpaths, hearlier⟩ := List.find?_eq_some_iff_append.mp hpath
  refine ⟨before, candidate, earlier, path, ⟨after, by simp⟩, ⟨later, by simp [hpaths]⟩, ?_, hhit⟩
  simp only [List.mem_append, List.mem_flatMap]
  rintro miss (⟨other, hother, hmiss⟩ | hmiss)
  · have hnone := hbefore other hother
    simp only [Bool.not_eq_true', List.any_eq_false, Bool.not_eq_true] at hnone
    exact hnone miss hmiss
  · simpa using hearlier miss hmiss

theorem HitsFirstAt.overCandidates_eq {candidates before : List Text} {candidate : Text}
    {earlier : List Path} {path : Path}
    (h : HitsFirstAt tryPaths requirable candidates before candidate earlier path) :
    overCandidates (.deciding tryPaths requirable) candidates =
      afterAll (before.flatMap (exhausting tryPaths))
        ⟨.expanded candidate :: (earlier ++ [path]).map .tested, .ok (some path)⟩ := by
  obtain ⟨⟨others, rfl⟩, ⟨later, hpaths⟩, hmisses, hhit⟩ := h
  simp only [List.mem_append, List.mem_flatMap] at hmisses
  have hbefore := overCandidates_of_misses tryPaths requirable
    (fun other hother miss hmiss => hmisses miss (.inl ⟨other, hother, hmiss⟩))
    (candidate :: others)
  have hearlier := overPaths_of_misses tryPaths requirable
    (overCandidates (.deciding tryPaths requirable) others)
    (fun miss hmiss => hmisses miss (.inr hmiss)) (path :: later)
  rw [overPaths_cons_of_hit tryPaths requirable _ hhit] at hearlier
  rw [List.append_assoc, List.singleton_append, hbefore, overCandidates]
  change afterAll _ ((overPaths _ _ (tryPaths candidate)).after _) = _
  rw [← hpaths, List.append_assoc, List.singleton_append, hearlier, after_afterAll]
  simp [afterAll]

end Deciding

theorem asked_afterAll_tests (paths : List Path) (search : Search) :
    (afterAll (paths.map .tested) search).asked = search.asked := by
  induction paths with
  | nil => rfl
  | cons path rest ih => exact ih

theorem checked_afterAll_tests (paths : List Path) (search : Search) :
    (afterAll (paths.map .tested) search).checked = paths ++ search.checked := by
  induction paths with
  | nil => rfl
  | cons path rest ih => exact congrArg (path :: ·) ih

theorem asked_afterAll_exhausting (tryPaths : Text → List Path) (candidates : List Text)
    (search : Search) :
    (afterAll (candidates.flatMap (exhausting tryPaths)) search).asked =
      candidates ++ search.asked := by
  induction candidates with
  | nil => rfl
  | cons candidate rest ih =>
      rw [List.flatMap_cons, ← afterAll_afterAll, exhausting, ← after_afterAll]
      exact congrArg (candidate :: ·) ((asked_afterAll_tests _ _).trans ih)

theorem checked_afterAll_exhausting (tryPaths : Text → List Path) (candidates : List Text)
    (search : Search) :
    (afterAll (candidates.flatMap (exhausting tryPaths)) search).checked =
      candidates.flatMap tryPaths ++ search.checked := by
  induction candidates with
  | nil => rfl
  | cons candidate rest ih =>
      rw [List.flatMap_cons, ← afterAll_afterAll, exhausting, ← after_afterAll,
        List.flatMap_cons, List.append_assoc, ← ih]
      exact checked_afterAll_tests _ _

end Search

namespace Resolver

open Search

/--
A search expands the candidates up to the first one with a hit, each as often
as it occurs, and tests all paths of those before it and its own up to the hit,
which it finds below the root path.  Without a hit it expands all candidates,
tests all their paths and finds nothing.  To resolve is to find and to record
just that.
-/
theorem search_stopsAtFirstHit (scope : Scope) (tryPaths : Text → List Path)
    (requirable : Path → Bool) (prefixes : List Text) (spelling : Text) (parent : Option Text) :
    let resolver : Resolver := ⟨scope, .deciding tryPaths requirable, prefixes⟩
    let candidates := scope.candidates spelling parent prefixes
    let search := resolver.search spelling parent
    (∃ before candidate earlier path,
        HitsFirstAt tryPaths requirable candidates before candidate earlier path ∧
          search.probes = before.flatMap (exhausting tryPaths) ++
            .expanded candidate :: (earlier ++ [path]).map .tested ∧
          search.asked = before ++ [candidate] ∧
          search.checked = before.flatMap tryPaths ++ (earlier ++ [path]) ∧
          resolver.find spelling parent = .ok (some (scope.rootPath.append path)) ∧
          resolver.resolve spelling parent =
            ⟨.ok (some (scope.rootPath.append path)), [scope.rootPath.append path]⟩) ∨
      (∀ candidate ∈ candidates, ∀ path ∈ tryPaths candidate, requirable path = false) ∧
        search.probes = candidates.flatMap (exhausting tryPaths) ∧
        search.asked = candidates ∧
        search.checked = candidates.flatMap tryPaths ∧
        resolver.find spelling parent = .ok none ∧
        resolver.resolve spelling parent = ⟨.ok none, []⟩ := by
  intro resolver candidates search
  have hsearch : search = overCandidates (.deciding tryPaths requirable) candidates := rfl
  have hresolve : resolver.resolve spelling parent =
      .ofFound (resolver.find spelling parent) := rfl
  by_cases h : ∃ candidate ∈ candidates, ∃ path ∈ tryPaths candidate, requirable path = true
  · obtain ⟨before, candidate, earlier, path, hfirst⟩ := exists_hitsFirstAt h
    rw [hfirst.overCandidates_eq] at hsearch
    have hfind : resolver.find spelling parent = .ok (some (scope.rootPath.append path)) := by
      change search.outcome.map _ = _
      rw [hsearch]
      rfl
    have hlast : (⟨.expanded candidate :: (earlier ++ [path]).map .tested, .ok (some path)⟩ :
        Search) = (afterAll ((earlier ++ [path]).map .tested) ⟨[], .ok (some path)⟩).after
          (.expanded candidate) := by
      rw [after_afterAll, afterAll, List.append_nil]
    refine .inl ⟨before, candidate, earlier, path, hfirst, by rw [hsearch]; rfl, ?_, ?_, hfind,
      by rw [hresolve, hfind]; rfl⟩
    · rw [hsearch, asked_afterAll_exhausting, hlast]
      exact congrArg (before ++ candidate :: ·) (asked_afterAll_tests _ _)
    · rw [hsearch, checked_afterAll_exhausting, hlast]
      exact congrArg (before.flatMap tryPaths ++ ·)
        ((checked_afterAll_tests _ _).trans (List.append_nil _))
  · have hmisses : ∀ candidate ∈ candidates, ∀ path ∈ tryPaths candidate,
        requirable path = false := by
      simpa using h
    have hall := overCandidates_of_misses tryPaths requirable hmisses []
    rw [List.append_nil] at hall
    rw [hall] at hsearch
    have hfind : resolver.find spelling parent = .ok none := by
      change search.outcome.map _ = _
      rw [hsearch]
      rfl
    refine .inr ⟨hmisses, ?_, ?_, ?_, hfind, by rw [hresolve, hfind]; rfl⟩
    · rw [hsearch]
      exact List.append_nil _
    · rw [hsearch, asked_afterAll_exhausting]
      exact List.append_nil _
    · rw [hsearch, checked_afterAll_exhausting]
      exact List.append_nil _

end Resolver

end Stylesheets
