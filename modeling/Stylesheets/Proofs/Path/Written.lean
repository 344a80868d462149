import Mathlib.Data.List.Basic
import Stylesheets.Path.Normal
import Stylesheets.Path.Spelling

/-!
# Written paths

What can be said of a path from its written form: it is absolute exactly when
it is written with a slash at the beginning, and a path whose segments are
steps without slashes can be read again from its written form.
-/

namespace Stylesheets.Path

theorem isAbsolute_ofText (text : Text) :
    (ofText text).isAbsolute = Spelling.isAbsolute text := by
  cases text with
  | nil => rfl
  | cons c rest =>
      by_cases hslash : c = '/'
      · subst hslash
        have hanchor : ∀ count, Anchor.ofSlashes (count + 1) ≠ .relative := by
          intro count
          unfold Anchor.ofSlashes
          grind
        simp [isAbsolute, ofText, Spelling.isAbsolute, hanchor]
      · have hother : ('/' == c) = false := by simpa using Ne.symm hslash
        simp [isAbsolute, ofText, Spelling.isAbsolute, hslash, List.isPrefixOf,
          hother, Anchor.ofSlashes]

theorem isAbsolute_text {path : Path} (h : path.isAbsolute = true) :
    Spelling.isAbsolute path.text = true := by
  obtain ⟨anchor, segments⟩ := path
  cases anchor with
  | relative => simp [isAbsolute] at h
  | root => simp [text, Anchor.text, Spelling.isAbsolute]
  | doubleRoot => simp [text, Anchor.text, Spelling.isAbsolute]

theorem isAbsolute_ofText_append {path : Path} (h : path.isAbsolute = true)
    (more : Text) : (ofText (path.text ++ more)).isAbsolute = true := by
  rw [isAbsolute_ofText, Spelling.isAbsolute, List.isPrefixOf_iff_prefix]
  have hslash := isAbsolute_text h
  rw [Spelling.isAbsolute, List.isPrefixOf_iff_prefix] at hslash
  exact hslash.trans (List.prefix_append _ _)

theorem isAbsolute_normalize (path : Path) : path.normalize.isAbsolute = path.isAbsolute := rfl

theorem isAbsolute_beside {first second : Text} (h : Spelling.isAbsolute first = true) :
    Spelling.isAbsolute (Spelling.beside first second) = true := by
  unfold Spelling.beside
  split
  · assumption
  · cases first with
    | nil => simp [Spelling.isAbsolute] at h
    | cons c first =>
        simp only [Spelling.isAbsolute] at h ⊢
        split <;> simpa using h

theorem isAbsolute_join {directory : Text} (h : Spelling.isAbsolute directory = true)
    (parts : List Text) : Spelling.isAbsolute (Spelling.join directory parts) = true := by
  have hdot : directory ≠ dot := by
    rintro rfl
    simp [Spelling.isAbsolute, dot] at h
  unfold Spelling.join
  rw [if_neg hdot]
  split
  · exact h
  · exact isAbsolute_beside h

theorem not_mem_of_mem_splitOn {mark : Char} {text segment : Text}
    (h : segment ∈ text.splitOn mark) : mark ∉ segment := by
  induction text generalizing segment with
  | nil =>
      obtain rfl : segment = [] := by simpa using h
      simp
  | cons c rest ih =>
      rw [List.splitOn_cons_eq_if_modifyHead] at h
      split at h
      · rcases List.mem_cons.mp h with rfl | hrest
        · simp
        · exact ih hrest
      · next hother =>
          cases hsplit : rest.splitOn mark with
          | nil => exact absurd hsplit (List.splitOn_ne_nil mark rest)
          | cons first later =>
              rw [hsplit, List.modifyHead_cons] at h
              rcases List.mem_cons.mp h with rfl | hlater
              · have hfirst := ih (by simp [hsplit] : first ∈ rest.splitOn mark)
                simp only [List.mem_cons, not_or]
                exact ⟨fun hsame => hother (by simp [hsame]), hfirst⟩
              · exact ih (by simp [hsplit, hlater])

theorem mem_joinSegments {segments : List Text} {segment : Text} {c : Char}
    (h : segment ∈ segments) (hc : c ∈ segment) : c ∈ joinSegments segments := by
  unfold joinSegments
  induction segments with
  | nil => cases h
  | cons first rest ih =>
      cases rest with
      | nil =>
          obtain rfl : segment = first := by simpa using h
          simpa using hc
      | cons second rest =>
          rcases List.mem_cons.mp h with rfl | hrest
          · simp [hc]
          · simpa using .inr (.inr (ih hrest))

theorem exists_of_mem_joinSegments {segments : List Text} {c : Char}
    (h : c ∈ joinSegments segments) : c = '/' ∨ ∃ segment ∈ segments, c ∈ segment := by
  unfold joinSegments at h
  induction segments with
  | nil => cases h
  | cons first rest ih =>
      cases rest with
      | nil => exact .inr ⟨first, List.mem_cons_self, by simpa using h⟩
      | cons second rest =>
          rw [List.intercalate_cons_cons, List.mem_append, List.mem_append,
            List.mem_singleton] at h
          rcases h with (hfirst | hslash) | hrest
          · exact .inr ⟨first, List.mem_cons_self, hfirst⟩
          · exact .inl hslash
          · refine (ih hrest).imp_right ?_
            rintro ⟨segment, hsegment, hc⟩
            exact ⟨segment, List.mem_cons_of_mem _ hsegment, hc⟩

theorem mem_of_mem_splitOn {text segment : Text} {c : Char} (h : segment ∈ text.splitOn '/')
    (hc : c ∈ segment) : c ∈ text := by
  have hjoined : joinSegments (text.splitOn '/') = text := List.intercalate_splitOn '/'
  rw [← hjoined]
  exact mem_joinSegments h hc

theorem mem_text {path : Path} {segment : Text} {c : Char} (h : segment ∈ path.segments)
    (hc : c ∈ segment) : c ∈ path.text := by
  have hjoined : c ∈ path.anchor.text ++ joinSegments path.segments :=
    List.mem_append_right _ (mem_joinSegments h hc)
  rw [text, if_neg]
  · exact hjoined
  · intro hempty
    rw [List.isEmpty_iff.mp hempty] at hjoined
    cases hjoined

def IsProper (path : Path) : Prop :=
  ∀ segment ∈ path.segments, isStep segment = true ∧ '/' ∉ segment

theorem isProper_ofText (text : Text) : (ofText text).IsProper := by
  intro segment hsegment
  obtain ⟨hsplit, hstep⟩ := List.mem_filter.mp hsegment
  exact ⟨hstep, not_mem_of_mem_splitOn hsplit⟩

theorem IsProper.append {base path : Path} (hbase : base.IsProper) (hpath : path.IsProper) :
    (base.append path).IsProper := by
  unfold Path.append
  split
  · exact hpath
  · exact List.forall_mem_append.mpr ⟨hbase, hpath⟩

theorem mem_foldl_push {anchored : Bool} {stack segments : List Text} {segment : Text}
    (h : segment ∈ segments.foldl (push anchored) stack) :
    segment ∈ stack ∨ segment ∈ segments := by
  induction segments generalizing stack with
  | nil => exact .inl h
  | cons first rest ih =>
      rcases ih h with hpush | hrest
      · have hkept : segment = first ∨ segment ∈ stack := by
          unfold push at hpush
          grind
        grind
      · exact .inr (List.mem_cons_of_mem _ hrest)

theorem IsProper.normalize {path : Path} (h : path.IsProper) : path.normalize.IsProper := by
  intro segment hsegment
  have hmem := mem_foldl_push (List.mem_reverse.mp hsegment)
  exact h segment (by simpa using hmem)

theorem isStep_of_isName {name : Text} (h : isName name = true) :
    isStep name = true ∧ '/' ∉ name := by
  simp only [isName, Bool.and_eq_true, Bool.not_eq_true', List.elem_eq_mem,
    decide_eq_false_iff_not] at h
  exact ⟨h.1.1, h.2⟩

/-! ## Reading what is written -/

theorem steps_cons_slash (text : Text) : steps ('/' :: text) = steps text := by
  simp [steps, List.splitOn_cons_eq_if_modifyHead, isStep]

theorem steps_joinSegments {segments : List Text}
    (h : ∀ segment ∈ segments, isStep segment = true ∧ '/' ∉ segment) :
    steps (joinSegments segments) = segments := by
  by_cases hempty : segments = []
  · subst hempty
    rfl
  · rw [steps, joinSegments,
      List.splitOn_intercalate '/' (fun segment hsegment => (h segment hsegment).2) hempty,
      List.filter_eq_self]
    exact fun segment hsegment => (h segment hsegment).1

theorem takeWhile_joinSegments {segments : List Text}
    (h : ∀ segment ∈ segments, isStep segment = true ∧ '/' ∉ segment) :
    (joinSegments segments).takeWhile (· == '/') = [] := by
  cases segments with
  | nil => rfl
  | cons first rest =>
      obtain ⟨hstep, hslash⟩ := h first (by simp)
      cases first with
      | nil => simp [isStep] at hstep
      | cons c first =>
          have hother : (c == '/') = false := by
            simp only [List.mem_cons, not_or] at hslash
            simpa using Ne.symm hslash.1
          simp [joinSegments, hother]

theorem ofText_text {path : Path} (h : path.IsProper) : ofText path.text = path := by
  obtain ⟨anchor, segments⟩ := path
  have hsteps : steps (joinSegments segments) = segments := steps_joinSegments h
  have hslashes : (joinSegments segments).takeWhile (· == '/') = [] :=
    takeWhile_joinSegments h
  cases anchor with
  | relative =>
      by_cases hempty : joinSegments segments = []
      · obtain rfl : segments = [] := by
          rw [← hsteps, hempty]
          rfl
        rfl
      · simp [text, Anchor.text, hempty, ofText, hsteps, hslashes, Anchor.ofSlashes]
  | root =>
      simp [text, Anchor.text, ofText, hslashes, Anchor.ofSlashes, steps_cons_slash, hsteps]
  | doubleRoot =>
      simp [text, Anchor.text, ofText, hslashes, Anchor.ofSlashes, steps_cons_slash, hsteps]

theorem text_injective {path other : Path} (h : path.IsProper) (hother : other.IsProper)
    (htext : path.text = other.text) : path = other := by
  rw [← ofText_text h, htext, ofText_text hother]

theorem joinSegments_append {segments more : List Text} (h : segments ≠ []) (hmore : more ≠ []) :
    joinSegments (segments ++ more) = joinSegments segments ++ '/' :: joinSegments more := by
  induction segments with
  | nil => exact absurd rfl h
  | cons first rest ih =>
      by_cases hrest : rest = []
      · subst hrest
        simp [joinSegments, List.intercalate_cons_of_ne_nil hmore]
      · have happend : rest ++ more ≠ [] := by simp [hrest]
        have hlater := ih hrest
        unfold joinSegments at hlater ⊢
        rw [List.cons_append, List.intercalate_cons_of_ne_nil happend, hlater,
          List.intercalate_cons_of_ne_nil hrest]
        simp

theorem joinSegments_prefix (segments more : List Text) :
    joinSegments segments <+: joinSegments (segments ++ more) := by
  induction segments with
  | nil => exact List.nil_prefix
  | cons first rest ih =>
      unfold joinSegments at ih ⊢
      cases rest with
      | nil =>
          cases more with
          | nil => simp
          | cons second more => simp
      | cons second rest =>
          simpa [List.prefix_append_right_inj] using ih

def descend (path : Path) (names : List Text) : Path :=
  { path with segments := path.segments ++ names }

theorem text_prefix_descend {path : Path} (h : path.isAbsolute = true)
    {names more : List Text} (hmore : names <+: more) :
    (path.descend names).text <+: (path.descend more).text := by
  obtain ⟨rest, rfl⟩ := hmore
  obtain ⟨anchor, segments⟩ := path
  have hjoin := joinSegments_prefix (segments ++ names) rest
  cases anchor with
  | relative => simp [isAbsolute] at h
  | root => simpa [descend, text, Anchor.text] using hjoin
  | doubleRoot => simpa [descend, text, Anchor.text] using hjoin

theorem IsProper.descend {path : Path} (h : path.IsProper) {names : List Text}
    (hnames : ∀ name ∈ names, isName name = true) : (path.descend names).IsProper := by
  intro segment hsegment
  rcases List.mem_append.mp hsegment with hbase | hname
  · exact h segment hbase
  · exact isStep_of_isName (hnames segment hname)

theorem descend_injective {path : Path} {names more : List Text}
    (h : path.descend names = path.descend more) : names = more := by
  simpa [descend] using h

end Stylesheets.Path
