import Stylesheets.FileTree.Query
import Stylesheets.Proofs.FileTree.Walk
import Stylesheets.Proofs.Path.Normal

/-!
# Trees without links

Where no entry is a link, a walk ends at the address that its segments spell
once double dots are taken back.  So a path and its normal path name the same
entry, and if this is a file they have the same name too.
-/

namespace Stylesheets

def Entry.isLink : Entry → Bool
  | link _ => true
  | _ => false

theorem Text.byteLength_le_of_sublist {text more : Text} (h : text.Sublist more) :
    text.byteLength ≤ more.byteLength := by
  induction h with
  | slnil => exact Nat.le_refl _
  | @cons text more c _ ih =>
      have hmore : byteLength (c :: more) = byteLength [c] + byteLength more :=
        byteLength_append [c] more
      omega
  | @cons_cons text more c _ ih =>
      have htext : byteLength (c :: text) = byteLength [c] + byteLength text :=
        byteLength_append [c] text
      have hmore : byteLength (c :: more) = byteLength [c] + byteLength more :=
        byteLength_append [c] more
      omega

namespace FileTree

def LinkFree (tree : FileTree) : Prop :=
  ∀ address target, tree.get? address ≠ some (.link target)

theorem linkFree_of_entries {tree : FileTree}
    (h : (tree.entries.any fun item => item.2.isLink) = false) : tree.LinkFree := by
  rw [List.any_eq_false] at h
  intro address target hentry
  rw [get?, Listing.get?] at hentry
  split at hentry
  · cases hentry
  · obtain ⟨before, after, hentries, -⟩ := List.lookup_eq_some_iff.mp hentry
    exact h (address, .link target) (by rw [hentries]; simp) rfl

variable {tree : FileTree} {followLast : Bool} {links : Nat} {address reached : Address}
  {segments names : List Text}

theorem LinkFree.walk_cons_eq_ok_iff (hfree : tree.LinkFree) {segment : Text}
    (hstep : Path.isStep segment = true) :
    tree.walk followLast links address (segment :: segments) = .ok reached ↔
      tree.isDirectory address = true ∧
        (segment = Path.doubleDot ∧
            tree.walk followLast links address.dropLast segments = .ok reached ∨
          segment ≠ Path.doubleDot ∧ ¬ maxNameBytes < Text.byteLength segment ∧
            (tree.get? (address ++ [segment])).isSome = true ∧
            tree.walk followLast links (address ++ [segment]) segments = .ok reached) := by
  rw [walk]
  cases hdirectory : tree.isDirectory address with
  | false => simp
  | true =>
      by_cases hdots : segment = Path.doubleDot
      · simp [hdots, ← hstep]
      · by_cases hlong : maxNameBytes < Text.byteLength segment
        · simp [hstep, hdots, hlong]
        · cases hentry : tree.get? (address ++ [segment]) with
          | none => simp [hstep, hdots, hlong]
          | some entry =>
              cases entry with
              | link target => exact absurd hentry (hfree _ target)
              | file content => simp [hstep, hdots, hlong]
              | directory => simp [hstep, hdots, hlong]

theorem push_doubleDot_reverse (hdirectory : tree.isDirectory address = true) :
    Path.push true address.reverse Path.doubleDot = address.dropLast.reverse := by
  have hnames := Listing.names_of_isDirectory tree.wellFormed hdirectory
  induction address using List.reverseRec with
  | nil => rfl
  | append_singleton before last _ =>
      have hlast : last ≠ Path.doubleDot := by
        rintro rfl
        simpa [Path.isName] using hnames Path.doubleDot (by simp)
      simp [Path.push, hlast]

theorem LinkFree.eq_foldl_push (hfree : tree.LinkFree)
    (hsteps : ∀ segment ∈ segments, Path.isStep segment = true)
    (h : tree.walk followLast links address segments = .ok reached) :
    reached = (segments.foldl (Path.push true) address.reverse).reverse := by
  induction segments generalizing address with
  | nil =>
      rw [walk] at h
      simpa using (Except.ok.inj h).symm
  | cons segment rest ih =>
      obtain ⟨hstep, hrest⟩ := List.forall_mem_cons.mp hsteps
      rw [hfree.walk_cons_eq_ok_iff hstep] at h
      obtain ⟨hdirectory, ⟨rfl, hwalk⟩ | ⟨hdots, -, -, hwalk⟩⟩ := h
      · rw [List.foldl_cons, push_doubleDot_reverse hdirectory]
        exact ih hrest hwalk
      · have hpush : Path.push true address.reverse segment = (address ++ [segment]).reverse := by
          simp [Path.push, hdots]
        rw [List.foldl_cons, hpush]
        exact ih hrest hwalk

theorem LinkFree.byteLength_le (hfree : tree.LinkFree)
    (hsteps : ∀ segment ∈ segments, Path.isStep segment = true)
    (h : tree.walk followLast links address segments = .ok reached) :
    ∀ segment ∈ segments, segment ≠ Path.doubleDot →
      ¬ maxNameBytes < Text.byteLength segment := by
  induction segments generalizing address with
  | nil => simp
  | cons first rest ih =>
      obtain ⟨hstep, hrest⟩ := List.forall_mem_cons.mp hsteps
      rw [hfree.walk_cons_eq_ok_iff hstep] at h
      intro segment hsegment hname
      obtain ⟨-, ⟨hdots, hwalk⟩ | ⟨-, hshort, -, hwalk⟩⟩ := h
      · refine ih hrest hwalk segment ((List.mem_cons.mp hsegment).resolve_left ?_) hname
        rintro rfl
        exact hname hdots
      · rcases List.mem_cons.mp hsegment with rfl | hlater
        · exact hshort
        · exact ih hrest hwalk segment hlater hname

theorem LinkFree.walk_names (hfree : tree.LinkFree)
    (hshort : ∀ name ∈ names, ¬ maxNameBytes < Text.byteLength name)
    (hsome : (tree.get? (address ++ names)).isSome = true) :
    tree.walk followLast links address names = .ok (address ++ names) := by
  induction names generalizing address with
  | nil => simp [walk]
  | cons name rest ih =>
      have hname : Path.isName name = true :=
        Listing.isName_of_isSome tree.wellFormed hsome name (by simp)
      have hdirectory : tree.isDirectory address = true :=
        Listing.isDirectory_of_append tree.wellFormed address (by simp) hsome
      have hsplit : address ++ name :: rest = (address ++ [name]) ++ rest := by simp
      have hdots : name ≠ Path.doubleDot := by
        rintro rfl
        simp [Path.isName] at hname
      have hinside : (tree.get? (address ++ [name])).isSome = true := by
        by_cases hlast : rest = []
        · simpa [hlast] using hsome
        · rw [hsplit] at hsome
          have hinner := Listing.isDirectory_of_append tree.wellFormed _ hlast hsome
          exact Option.isSome_of_eq_some (Listing.isDirectory_iff.mp hinner)
      rw [hfree.walk_cons_eq_ok_iff (Path.isStep_of_isName hname).1, hsplit]
      refine ⟨hdirectory, .inr ⟨hdots, hshort name (by simp), hinside, ?_⟩⟩
      exact ih (fun other hother => hshort other (by simp [hother])) (hsplit ▸ hsome)

/-! ## Paths -/

variable {current path : Path}

/-- The address that a path leads to is spelled by its normal path. -/
theorem LinkFree.eq_segments_normalize (hfree : tree.LinkFree) (habsolute : path.isAbsolute = true)
    (hproper : path.IsProper) (h : tree.locate followLast current path = .ok reached) :
    reached = path.normalize.segments := by
  obtain ⟨-, -, hwalk⟩ := locate_eq_ok_iff.mp h
  rw [if_pos habsolute] at hwalk
  rw [hfree.eq_foldl_push (fun segment hsegment => (hproper segment hsegment).1) hwalk,
    Path.normalize, Path.normalSegments, habsolute, List.reverse_nil]

theorem LinkFree.locate_normalize (hfree : tree.LinkFree) (habsolute : path.isAbsolute = true)
    (hproper : path.IsProper) (h : tree.locate followLast current path = .ok reached)
    (hsome : (tree.get? reached).isSome = true) :
    tree.locate followLast current path.normalize = .ok reached := by
  obtain ⟨hnull, hlong, hwalk⟩ := locate_eq_ok_iff.mp h
  have hsteps : ∀ segment ∈ path.segments, Path.isStep segment = true :=
    fun segment hsegment => (hproper segment hsegment).1
  have htext := Path.normalize_text_sublist habsolute
  have hstart : (if path.isAbsolute then [] else current.segments) = ([] : Address) :=
    if_pos habsolute
  rw [hstart] at hwalk
  have hreached := hfree.eq_segments_normalize habsolute hproper h
  rw [locate_eq_ok_iff, Path.isAbsolute_normalize, hstart, ← hreached]
  refine ⟨fun hmem => hnull (htext.subset hmem), ?_, ?_⟩
  · have hshorter := Text.byteLength_le_of_sublist htext
    omega
  · refine hfree.walk_names (fun name hname => ?_) (by simpa using hsome)
    have hkept : name ∈ path.normalize.segments := by rwa [← hreached]
    have hmem : name ∈ path.segments := (Path.normalSegments_sublist _ _).subset hkept
    refine hfree.byteLength_le hsteps hwalk name hmem ?_
    rintro rfl
    simpa [Path.isName] using Listing.isName_of_isSome tree.wellFormed hsome _ hname

theorem exists_of_isFile (h : tree.isFile current path = .ok true) :
    ∃ reached content, tree.locate true current path = .ok reached ∧
      tree.get? reached = some (.file content) := by
  unfold isFile leadsTo find? at h
  cases hlocate : tree.locate true current path with
  | error obstacle => cases obstacle <;> simp [hlocate] at h
  | ok reached =>
      rw [hlocate] at h
      cases hentry : tree.get? reached with
      | none => simp [hentry] at h
      | some entry =>
          cases entry with
          | file content => exact ⟨reached, content, rfl, hentry⟩
          | directory => simp [hentry] at h
          | link target => simp [hentry] at h

theorem getLast?_ne_of_isFile (h : tree.isFile current path = .ok true) :
    path.segments.getLast? ≠ some Path.doubleDot := by
  obtain ⟨reached, content, hlocate, hentry⟩ := exists_of_isFile h
  intro hlast
  have hdirectory := isDirectory_of_walk_doubleDot hlast (locate_eq_ok_iff.mp hlocate).2.2
  rw [isDirectory, Listing.isDirectory_iff] at hdirectory
  exact Entry.noConfusion (Option.some.inj (hentry.symm.trans hdirectory))

theorem LinkFree.isFile_normalize (hfree : tree.LinkFree) (habsolute : path.isAbsolute = true)
    (hproper : path.IsProper) (h : tree.isFile current path = .ok true) :
    tree.locate true current path.normalize = tree.locate true current path ∧
      tree.isFile current path.normalize = .ok true ∧ path.normalize.name = path.name := by
  obtain ⟨reached, content, hlocate, hentry⟩ := exists_of_isFile h
  have hnormal := hfree.locate_normalize habsolute hproper hlocate (by simp [hentry])
  refine ⟨hnormal.trans hlocate.symm, ?_, Path.name_normalize (getLast?_ne_of_isFile h)⟩
  simp [isFile, leadsTo, find?, hnormal, hentry]

end FileTree

end Stylesheets
