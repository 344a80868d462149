import Mathlib.Data.List.Induction
import Stylesheets.Proofs.Path.Written

/-!
# Normal paths

The normal form of a path leaves segments out and adds none.  An absolute path
keeps no double dot in it, and what is joined to a path meets only its normal
form.
-/

namespace Stylesheets.Path

theorem push_sublist (anchored : Bool) (stack : List Text) (segment : Text) :
    (push anchored stack segment).Sublist (segment :: stack) := by
  unfold push
  split
  · next hdots =>
      subst hdots
      split
      · split <;> simp
      · next last before =>
          split
          · exact List.Sublist.refl _
          · exact ((List.Sublist.refl before).cons last).cons doubleDot
  · exact List.Sublist.refl _

theorem foldl_push_sublist (anchored : Bool) (segments stack : List Text) :
    (segments.foldl (push anchored) stack).reverse.Sublist (stack.reverse ++ segments) := by
  induction segments generalizing stack with
  | nil => simp
  | cons segment rest ih =>
      refine (ih (push anchored stack segment)).trans ?_
      have hpush := (push_sublist anchored stack segment).reverse.append_right rest
      simpa using hpush

theorem normalSegments_sublist (anchored : Bool) (segments : List Text) :
    (normalSegments anchored segments).Sublist segments :=
  foldl_push_sublist anchored segments []

theorem joinSegments_cons_cons (first second : Text) (rest : List Text) :
    joinSegments (first :: second :: rest) = first ++ '/' :: joinSegments (second :: rest) := by
  simp [joinSegments]

theorem joinSegments_sublist {segments more : List Text} (h : segments.Sublist more) :
    (joinSegments segments).Sublist (joinSegments more) := by
  induction h with
  | slnil => exact .slnil
  | @cons segments more segment h ih =>
      cases more with
      | nil =>
          rw [List.sublist_nil.mp h]
          exact List.nil_sublist _
      | cons second rest =>
          rw [joinSegments_cons_cons]
          exact (ih.cons '/').trans (List.sublist_append_right _ _)
  | @cons_cons segments more segment h ih =>
      cases segments with
      | nil =>
          have hbegins := joinSegments_prefix [segment] more
          exact hbegins.sublist
      | cons first rest =>
          obtain ⟨second, others, rfl⟩ : ∃ second others, more = second :: others :=
            List.exists_cons_of_ne_nil fun hnil => by simp [hnil] at h
          rw [joinSegments_cons_cons, joinSegments_cons_cons]
          exact (ih.cons_cons '/').append_left segment

theorem normalize_text_sublist {path : Path} (h : path.isAbsolute = true) :
    path.normalize.text.Sublist path.text := by
  obtain ⟨anchor, segments⟩ := path
  have hjoin := joinSegments_sublist
    (normalSegments_sublist (isAbsolute ⟨anchor, segments⟩) segments)
  cases anchor with
  | relative => simp [isAbsolute] at h
  | root => simpa [normalize, text, Anchor.text] using hjoin
  | doubleRoot => simpa [normalize, text, Anchor.text] using hjoin

theorem name_normalize {path : Path} (h : path.segments.getLast? ≠ some doubleDot) :
    path.normalize.name = path.name := by
  cases hsegments : path.segments using List.reverseRec with
  | nil => simp [name, normalize, normalSegments, hsegments]
  | append_singleton before last _ =>
      have hlast : last ≠ doubleDot := by simpa [hsegments] using h
      simp [name, normalize, normalSegments, hsegments, push, hlast]

theorem foldl_push_of_not_mem {segments : List Text} (h : doubleDot ∉ segments) (anchored : Bool)
    (stack : List Text) :
    segments.foldl (push anchored) stack = segments.reverse ++ stack := by
  induction segments generalizing stack with
  | nil => rfl
  | cons segment rest ih =>
      rw [List.mem_cons, not_or] at h
      simp [push, Ne.symm h.1, ih h.2]

theorem normalize_eq_self {path : Path} (h : doubleDot ∉ path.segments) :
    path.normalize = path := by
  simp [normalize, normalSegments, foldl_push_of_not_mem h]

theorem not_mem_push {stack : List Text} (h : doubleDot ∉ stack) (segment : Text) :
    doubleDot ∉ push true stack segment := by
  unfold push
  split
  · split
    · exact List.not_mem_nil
    · next last before =>
        rw [List.mem_cons, not_or] at h
        rw [if_neg (Ne.symm h.1)]
        exact h.2
  · next hother =>
      rw [List.mem_cons, not_or]
      exact ⟨Ne.symm hother, h⟩

theorem not_mem_foldl_push {stack : List Text} (h : doubleDot ∉ stack) (segments : List Text) :
    doubleDot ∉ segments.foldl (push true) stack := by
  induction segments generalizing stack with
  | nil => exact h
  | cons segment rest ih => exact ih (not_mem_push h segment)

theorem not_mem_normalize {path : Path} (h : path.isAbsolute = true) :
    doubleDot ∉ path.normalize.segments := by
  rw [normalize, normalSegments, h, List.mem_reverse]
  exact not_mem_foldl_push List.not_mem_nil path.segments

theorem foldl_push_replicate {stack : List Text} (h : doubleDot ∉ stack) (count : Nat) :
    (List.replicate count doubleDot).foldl (push true) stack = stack.drop count := by
  induction count generalizing stack with
  | zero => rfl
  | succ count ih =>
      cases stack with
      | nil => simpa [List.replicate_succ, push] using ih h
      | cons last before =>
          rw [List.mem_cons, not_or] at h
          simpa [List.replicate_succ, push, Ne.symm h.1] using ih h.2

theorem normalize_child_doubleDot {path : Path} (habsolute : path.isAbsolute = true)
    (h : doubleDot ∉ path.segments) : (path.child doubleDot).normalize = path.parent := by
  have hstack : doubleDot ∉ path.segments.reverse := by rwa [List.mem_reverse]
  have hpop := foldl_push_replicate hstack 1
  rw [List.replicate_one, List.foldl_cons, List.foldl_nil, List.drop_one, List.tail_reverse] at hpop
  have hsame : (path.child doubleDot).isAbsolute = true := habsolute
  rw [normalize, hsame]
  simp [child, parent, normalSegments, List.foldl_append, foldl_push_of_not_mem h, hpop]

/-! ## Normal paths -/

/-- An absolute path in normal form whose segments can be read again. -/
structure IsNormal (path : Path) : Prop where
  isAbsolute : path.isAbsolute = true
  isProper : path.IsProper
  normalize_eq : path.normalize = path

theorem IsNormal.not_mem {path : Path} (h : path.IsNormal) : doubleDot ∉ path.segments := by
  rw [← h.normalize_eq]
  exact not_mem_normalize h.isAbsolute

theorem isName_of_isStep {segment : Text} (hstep : isStep segment = true)
    (hdots : segment ≠ doubleDot) (hslash : '/' ∉ segment) : isName segment = true := by
  simp [isName, hstep, hdots, hslash]

theorem isAbsolute_root : isAbsolute ⟨.root, []⟩ = true := rfl

theorem forall_mem_root_isAbsolute :
    ∀ path ∈ [(⟨.root, []⟩ : Path)], path.isAbsolute = true :=
  List.forall_mem_singleton.mpr isAbsolute_root

theorem isNormal_of_names {path : Path} (habsolute : path.isAbsolute = true)
    (hnames : ∀ name ∈ path.segments, isName name = true) : path.IsNormal where
  isAbsolute := habsolute
  isProper segment hsegment := isStep_of_isName (hnames segment hsegment)
  normalize_eq := normalize_eq_self fun hdots => by
    simpa [isName] using hnames doubleDot hdots

theorem IsNormal.isName {path : Path} (h : path.IsNormal) {name : Text}
    (hname : name ∈ path.segments) : isName name = true := by
  obtain ⟨hstep, hslash⟩ := h.isProper name hname
  refine isName_of_isStep hstep ?_ hslash
  rintro rfl
  exact h.not_mem hname

theorem isNormal_iff {path : Path} (habsolute : path.isAbsolute = true) (hproper : path.IsProper) :
    path.IsNormal ↔ doubleDot ∉ path.segments :=
  ⟨IsNormal.not_mem, fun h => ⟨habsolute, hproper, normalize_eq_self h⟩⟩

theorem isNormal_normalize {path : Path} (habsolute : path.isAbsolute = true)
    (hproper : path.IsProper) : path.normalize.IsNormal :=
  ⟨habsolute, hproper.normalize, normalize_eq_self (not_mem_normalize habsolute)⟩

theorem IsNormal.descend {path : Path} (h : path.IsNormal) {names : List Text}
    (hnames : ∀ name ∈ names, Path.isName name = true) : (path.descend names).IsNormal :=
  isNormal_of_names h.isAbsolute
    (List.forall_mem_append.mpr ⟨fun _ => h.isName, hnames⟩)

theorem IsNormal.parent {path : Path} (h : path.IsNormal) : path.parent.IsNormal :=
  isNormal_of_names h.isAbsolute fun _ hname => h.isName ((List.dropLast_sublist _).subset hname)

theorem isNormal_iff_dropLast {path : Path} (habsolute : path.isAbsolute = true)
    (hproper : path.IsProper) (hlast : path.segments.getLast? ≠ some doubleDot) :
    path.IsNormal ↔ doubleDot ∉ path.segments.dropLast := by
  rw [isNormal_iff habsolute hproper]
  cases hsegments : path.segments using List.reverseRec with
  | nil => simp
  | append_singleton before last _ =>
      have hother : last ≠ doubleDot := by simpa [hsegments] using hlast
      simp [Ne.symm hother]

theorem append_assoc (base path more : Path) :
    (base.append path).append more = base.append (path.append more) := by
  by_cases hmore : more.isAbsolute = true
  · simp only [append_of_isAbsolute hmore]
  · by_cases hpath : path.isAbsolute = true
    · rw [append_of_isAbsolute hpath, append_of_isAbsolute (isAbsolute_append hpath more)]
    · have hjoined : ¬ (path.append more).isAbsolute = true := by
        rw [append, if_neg hmore]
        exact hpath
      simp only [append, if_neg hmore, if_neg hpath] at hjoined ⊢
      rw [if_neg hjoined, List.append_assoc]

theorem normalize_append {base path : Path} (hbase : base.isAbsolute = true)
    (hpath : path.isAbsolute = false) :
    (base.append path).normalize =
      { base with
        segments :=
          (path.segments.foldl (push true) base.normalize.segments.reverse).reverse } := by
  have hjoined : base.append path = { base with segments := base.segments ++ path.segments } :=
    if_neg (by simp [hpath])
  have habsolute := isAbsolute_append hbase path
  rw [hjoined] at habsolute ⊢
  simp [normalize, normalSegments, habsolute, hbase, List.foldl_append]

theorem mem_append_ofText_iff {above : Path} (h : doubleDot ∉ above.segments) (text : Text) :
    doubleDot ∈ (above.append (ofText text)).segments ↔ doubleDot ∈ steps text := by
  unfold Path.append
  split
  · exact Iff.rfl
  · rw [List.mem_append, or_iff_right h]
    exact Iff.rfl

theorem IsNormal.append_ofText {above : Path} (h : above.IsNormal) {text : Text}
    (htext : doubleDot ∉ steps text) : (above.append (ofText text)).IsNormal :=
  (isNormal_iff (isAbsolute_append h.isAbsolute _)
    (h.isProper.append (isProper_ofText text))).mpr fun hdots =>
      htext ((mem_append_ofText_iff h.not_mem text).mp hdots)

end Stylesheets.Path
