import Stylesheets.FileTree.RealPath
import Stylesheets.Proofs.Path.Normal

/-!
# Real paths are normal

While links are resolved the address holds names only: a double dot takes one
back, and what stands for nothing is left out.  So a path without links has no
dots, and neither has one that is cut off at a loop.
-/

namespace Stylesheets.FileTree

def IsNamed (address : Address) : Prop := ∀ name ∈ address, Path.isName name = true

def KnownLinks.AreNamed (known : KnownLinks) : Prop :=
  ∀ link found, (link, some found) ∈ known → IsNamed found

def Resolution.IsNamed : Resolution → Prop
  | complete address known => FileTree.IsNamed address ∧ known.AreNamed
  | looping segments => ∀ segment ∈ segments, '/' ∉ segment

variable {tree : FileTree} {address : Address} {segment : Text} {known : KnownLinks}

theorem IsNamed.dropLast (h : IsNamed address) : IsNamed address.dropLast := fun name hname =>
  h name ((List.dropLast_sublist _).subset hname)

theorem IsNamed.child (h : IsNamed address) (hstep : ¬ (!Path.isStep segment) = true)
    (hdots : segment ≠ Path.doubleDot) (hslash : '/' ∉ segment) :
    IsNamed (address ++ [segment]) := by
  intro name hname
  rcases List.mem_append.mp hname with hold | hnew
  · exact h name hold
  · rw [List.mem_singleton.mp hnew]
    exact Path.isName_of_isStep (by simpa using hstep) hdots hslash

theorem IsNamed.slash_not_mem (h : IsNamed address) {rest : List Text}
    (hrest : ∀ segment ∈ rest, '/' ∉ segment) : ∀ segment ∈ address ++ rest, '/' ∉ segment := by
  intro segment hsegment
  rcases List.mem_append.mp hsegment with hname | hlater
  · exact (Path.isStep_of_isName (h segment hname)).2
  · exact hrest segment hlater

theorem KnownLinks.AreNamed.cons_none (h : known.AreNamed) (link : Address) :
    KnownLinks.AreNamed ((link, none) :: known) := by
  intro other found hmem
  simpa using h other found (by simpa using hmem)

theorem KnownLinks.AreNamed.cons_some (h : known.AreNamed) {found : Address}
    (hfound : FileTree.IsNamed found) (link : Address) :
    KnownLinks.AreNamed ((link, some found) :: known) := by
  intro other held hmem
  rcases List.mem_cons.mp hmem with hfirst | hrest
  · obtain rfl : held = found := by simpa using congrArg Prod.snd hfirst
    exact hfound
  · exact h other held hrest

theorem KnownLinks.AreNamed.of_lookup (h : known.AreNamed) {link found : Address}
    (hfound : known.lookup link = some (some found)) : FileTree.IsNamed found := by
  obtain ⟨before, after, rfl, -⟩ := List.lookup_eq_some_iff.mp hfound
  exact h link found (by simp)

theorem isNamed_linkStart (haddress : IsNamed address) (target : Text) :
    IsNamed (if isLinkToRoot target then [] else address) := by
  split
  · exact List.forall_mem_nil _
  · exact haddress

theorem isNamed_resolveLinks (tree : FileTree) (fuel : Nat) {known : KnownLinks}
    {address : Address} {segments : List Text} (hknown : known.AreNamed)
    (haddress : IsNamed address) (hsegments : ∀ segment ∈ segments, '/' ∉ segment) :
    (tree.resolveLinks fuel known address segments).IsNamed := by
  -- What a link leads to is resolved before the rest, so the induction is on these calls.
  fun_induction resolveLinks tree fuel known address segments with
  | case1 => exact ⟨haddress, hknown⟩
  | case2 fuel known address segment rest hstep ih =>
      exact ih hknown haddress (List.forall_mem_cons.mp hsegments).2
  | case3 fuel known address rest hstep ih =>
      exact ih hknown haddress.dropLast (List.forall_mem_cons.mp hsegments).2
  | case4 fuel known address segment rest hstep hdots next target hlink found hfound ih =>
      exact ih hknown (hknown.of_lookup hfound) (List.forall_mem_cons.mp hsegments).2
  | case5 fuel known address segment rest hstep hdots next target hlink hopen =>
      obtain ⟨hslash, hrest⟩ := List.forall_mem_cons.mp hsegments
      exact (haddress.child hstep hdots hslash).slash_not_mem hrest
  | case6 known address segment rest hstep hdots next target hlink hnew =>
      obtain ⟨hslash, hrest⟩ := List.forall_mem_cons.mp hsegments
      exact (haddress.child hstep hdots hslash).slash_not_mem hrest
  | case7 known address segment rest hstep hdots next target hlink hnew left start looping hloop
      ih =>
      have hinside := ih (hknown.cons_none next) (isNamed_linkStart haddress target)
        fun _ => Path.not_mem_of_mem_splitOn
      rw [hloop] at hinside
      exact List.forall_mem_append.mpr ⟨hinside, (List.forall_mem_cons.mp hsegments).2⟩
  | case8 known address segment rest hstep hdots next target hlink hnew left start found learned
      hfound ih ihRest =>
      have hinside := ih (hknown.cons_none next) (isNamed_linkStart haddress target)
        fun _ => Path.not_mem_of_mem_splitOn
      rw [hfound] at hinside
      exact ihRest (hinside.2.cons_some hinside.1 next) hinside.1
        (List.forall_mem_cons.mp hsegments).2
  | case9 fuel known address segment rest hstep hdots next hother ih =>
      obtain ⟨hslash, hrest⟩ := List.forall_mem_cons.mp hsegments
      exact ih hknown (haddress.child hstep hdots hslash) hrest

/-- The address that a resolution comes to; a loop is cut off and read as it is written. -/
def Resolution.reached : Resolution → Address
  | complete address _ => address
  | looping segments => Path.normalSegments true (segments.filter Path.isStep)

theorem Resolution.IsNamed.reached {resolution : Resolution} (h : resolution.IsNamed) :
    FileTree.IsNamed resolution.reached := by
  cases resolution with
  | complete address known => exact h.1
  | looping segments =>
      intro name hname
      have hdots : Path.doubleDot ∉ Resolution.reached (.looping segments) := by
        rw [Resolution.reached, Path.normalSegments, List.mem_reverse]
        exact Path.not_mem_foldl_push List.not_mem_nil _
      obtain ⟨hmem, hstep⟩ := List.mem_filter.mp ((Path.normalSegments_sublist _ _).subset hname)
      refine Path.isName_of_isStep hstep ?_ (h name hmem)
      rintro rfl
      exact hdots hname

theorem isNormal_of_realPath {current path : Path} {real : AbsolutePath}
    (hcurrent : current.IsNormal) (hproper : path.IsProper)
    (h : tree.realPath current path = .ok real) : real.val.IsNormal := by
  have hstart : IsNamed (if path.isAbsolute then [] else current.segments) := by
    split
    · exact List.forall_mem_nil _
    · exact fun _ => hcurrent.isName
  have hresolved := isNamed_resolveLinks tree (tree.entries.length + 1)
    (fun _ _ hmem => absurd hmem List.not_mem_nil) hstart
    fun segment hsegment => (hproper segment hsegment).2
  unfold realPath at h
  split at h
  · cases h
  · have hreal : real.val = ⟨.root, (tree.resolveLinks (tree.entries.length + 1) []
        (if path.isAbsolute then [] else current.segments) path.segments).reached⟩ := by
      simp only at h
      split at h
      · cases h
      · rw [← Except.ok.inj h]
        rfl
    exact Path.isNormal_of_names (by rw [hreal]; rfl) (by rw [hreal]; exact hresolved.reached)

end Stylesheets.FileTree
