import Mathlib.Data.List.Induction
import Mathlib.Data.List.TakeWhile
import Stylesheets.Proofs.Path.Written

/-!
# Spelled paths

Joining texts joins the paths that they spell, whatever dots and slashes stand
in them.  The directory of a spelling begins with a slash exactly when the
spelling does, and its file name holds none.
-/

namespace Stylesheets

namespace Spelling

theorem isAbsolute_of_slash_not_mem {text : Text} (h : '/' ∉ text) : isAbsolute text = false := by
  rw [isAbsolute, Bool.eq_false_iff, Ne, List.isPrefixOf_iff_prefix]
  exact fun hbegins => h (hbegins.subset (by simp))

theorem join_of_not_isStep {name : Text} (h : Path.isStep name = false) (directory : Text) :
    join directory [name] = directory := by
  simp +contextual [join, h]

theorem join_of_isStep {name : Text} (h : Path.isStep name = true) (directory : Text) :
    join directory [name] = if directory = Path.dot then name else beside directory name := by
  have hnonempty : name ≠ [] := by
    rintro rfl
    simp [Path.isStep] at h
  have hremainder : beside [] name = name := by simp [beside]
  simp [join, h, hremainder, hnonempty]

theorem join_dot {text : Text} (h : text ≠ []) : join Path.dot [text] = text := by
  cases hstep : Path.isStep text with
  | true => rw [join_of_isStep hstep, if_pos rfl]
  | false =>
      have hdot : text = Path.dot := by simpa [Path.isStep, h] using hstep
      rw [join_of_not_isStep hstep, hdot]

end Spelling

namespace Path

theorem steps_append_slash (first second : Text) :
    steps (first ++ '/' :: second) = steps first ++ steps second := by
  simp [steps, List.splitOn_append_cons_self]

theorem steps_of_not_isStep {text : Text} (h : isStep text = false) : steps text = [] := by
  simp only [isStep, Bool.and_eq_false_iff, Bool.not_eq_false', List.isEmpty_iff,
    bne_eq_false_iff_eq] at h
  rcases h with rfl | rfl <;> rfl

theorem takeWhile_slash {text : Text} (h : Spelling.isAbsolute text = false) :
    text.takeWhile (· == '/') = [] := by
  cases text with
  | nil => rfl
  | cons c rest =>
      have hother : c ≠ '/' := by
        rintro rfl
        simp [Spelling.isAbsolute] at h
      simp [hother]

theorem takeWhile_slash_append (first : Text) {second : Text}
    (h : Spelling.isAbsolute second = false) :
    (first ++ second).takeWhile (· == '/') = first.takeWhile (· == '/') := by
  rw [List.takeWhile_append, takeWhile_slash h, List.append_nil]
  split
  · next hall => exact ((List.takeWhile_prefix _).eq_of_length hall).symm
  · rfl

theorem takeWhile_slash_append_slash {first : Text} (hnonempty : first ≠ [])
    (hend : ¬ ['/'] <:+ first) (rest : Text) :
    (first ++ '/' :: rest).takeWhile (· == '/') = first.takeWhile (· == '/') := by
  rw [List.takeWhile_append, if_neg]
  intro hall
  have hslashes : ∀ c ∈ first, c = '/' := by
    have htext := (List.takeWhile_prefix (· == '/')).eq_of_length hall
    simpa using List.takeWhile_eq_self_iff.mp htext
  refine hend ⟨first.dropLast, ?_⟩
  have hlast := hslashes _ (List.getLast_mem hnonempty)
  rw [← hlast, List.dropLast_append_getLast hnonempty]

theorem ofText_of_relative {text : Text} (h : Spelling.isAbsolute text = false) :
    ofText text = ⟨.relative, steps text⟩ := by
  simp [ofText, takeWhile_slash h, Anchor.ofSlashes]

theorem append_ofText (base : Path) {text : Text} (h : Spelling.isAbsolute text = false) :
    base.append (ofText text) = { base with segments := base.segments ++ steps text } := by
  rw [append, isAbsolute_ofText, h]
  rfl

theorem ofText_beside (first : Text) {second : Text} (h : Spelling.isAbsolute second = false) :
    ofText (Spelling.beside first second) = (ofText first).append (ofText second) := by
  have hrelative : ¬ "/".toList.isPrefixOf second = true := Bool.eq_false_iff.mp h
  rw [append_ofText _ h, Spelling.beside, if_neg hrelative]
  split
  · next hend =>
      simp only [ofText, takeWhile_slash_append first h, Path.mk.injEq, true_and]
      rcases Bool.or_eq_true_iff.mp hend with hempty | hslash
      · rw [List.isEmpty_iff.mp hempty]
        rfl
      · obtain ⟨before, rfl⟩ := List.isSuffixOf_iff_suffix.mp hslash
        have hjoined : steps ((before ++ ['/']) ++ second) = steps before ++ steps second := by
          rw [List.append_assoc, List.singleton_append, steps_append_slash]
        have hbefore : steps (before ++ ['/']) = steps before := by
          rw [steps_append_slash before []]
          exact List.append_nil _
        exact hjoined.trans (congrArg (· ++ steps second) hbefore.symm)
  · next hend =>
      rw [Bool.or_eq_true, not_or, List.isEmpty_iff] at hend
      have hslash : ¬ ['/'] <:+ first := fun hsuffix =>
        hend.2 (List.isSuffixOf_iff_suffix.mpr hsuffix)
      simp only [ofText, takeWhile_slash_append_slash hend.1 hslash, steps_append_slash]

theorem ofText_join (directory : Text) {name : Text} (h : Spelling.isAbsolute name = false) :
    ofText (Spelling.join directory [name]) = (ofText directory).append (ofText name) := by
  rw [append_ofText _ h]
  cases hstep : isStep name with
  | false =>
      rw [Spelling.join_of_not_isStep hstep, steps_of_not_isStep hstep, List.append_nil]
  | true =>
      rw [Spelling.join_of_isStep hstep]
      split
      · next hdot =>
          rw [hdot, ofText_of_relative h]
          rfl
      · rw [ofText_beside directory h, append_ofText _ h]

theorem isAbsolute_join_name (directory : Text) {name : Text}
    (h : Spelling.isAbsolute name = false) :
    Spelling.isAbsolute (Spelling.join directory [name]) = Spelling.isAbsolute directory := by
  rw [← isAbsolute_ofText, ofText_join directory h, append_ofText _ h, ← isAbsolute_ofText]
  rfl

theorem steps_join (directory : Text) {name : Text} (h : Spelling.isAbsolute name = false) :
    steps (Spelling.join directory [name]) = steps directory ++ steps name := by
  have hjoin := ofText_join directory h
  rw [append_ofText _ h] at hjoin
  exact congrArg segments hjoin

end Path

/-! ## Endings -/

namespace Path

theorem steps_of_slash_not_mem {text : Text} (h : '/' ∉ text) :
    steps text = if isStep text then [text] else [] := by
  rw [steps, List.splitOn_eq_singleton h, List.filter_singleton, Bool.cond_eq_ite]

theorem dropLast_steps_of_slash_not_mem {text : Text} (h : '/' ∉ text) :
    (steps text).dropLast = [] := by
  rw [steps_of_slash_not_mem h]
  split <;> rfl

theorem isStep_append {text : Text} (h : isStep text = true) (more : Text) :
    isStep (text ++ more) = true := by
  cases text with
  | nil => simp [isStep] at h
  | cons c rest =>
      cases rest with
      | nil =>
          have hdot : c ≠ '.' := by
            rintro rfl
            simp [isStep, dot] at h
          simp [isStep, dot, hdot]
      | cons d rest => simp [isStep, dot]

theorem isStep_append_right (first : Text) {second : Text} (h : isStep second = true) :
    isStep (first ++ second) = true := by
  cases first with
  | nil => exact h
  | cons c first =>
      have hsecond : second ≠ [] := by
        rintro rfl
        simp [isStep] at h
      simp [isStep, dot, hsecond]

theorem segments_ofText_text_append {path : Path} (h : path.isAbsolute = true) (more : Text) :
    (ofText (path.text ++ more)).segments = steps (joinSegments path.segments ++ more) := by
  obtain ⟨anchor, segments⟩ := path
  cases anchor with
  | relative => simp [isAbsolute] at h
  | root => simp [text, Anchor.text, ofText, steps_cons_slash]
  | doubleRoot => simp [text, Anchor.text, ofText, steps_cons_slash]

theorem steps_joinSegments_append {before : List Text} {last more : Text}
    (hbefore : ∀ segment ∈ before, isStep segment = true ∧ '/' ∉ segment)
    (hlast : isStep last = true ∧ '/' ∉ last) (hmore : '/' ∉ more) :
    steps (joinSegments (before ++ [last]) ++ more) = before ++ [last ++ more] := by
  have hlonger : '/' ∉ last ++ more := by
    rw [List.mem_append, not_or]
    exact ⟨hlast.2, hmore⟩
  have hsteps : steps (last ++ more) = [last ++ more] := by
    rw [steps_of_slash_not_mem hlonger, if_pos (isStep_append hlast.1 more)]
  have hjoined : joinSegments [last] = last := by simp [joinSegments]
  by_cases hempty : before = []
  · subst hempty
    rw [List.nil_append, hjoined, hsteps, List.nil_append]
  · rw [joinSegments_append hempty (List.cons_ne_nil _ _), hjoined, List.append_assoc,
      List.cons_append, steps_append_slash, steps_joinSegments hbefore, hsteps]

theorem anchor_ofText_text_append {path : Path} (hproper : path.IsProper) {more : Text}
    (hmore : '/' ∉ more) : (ofText (path.text ++ more)).anchor = path.anchor := by
  have hanchor := congrArg anchor (ofText_text hproper)
  simp only [ofText] at hanchor ⊢
  rw [takeWhile_slash_append _ (Spelling.isAbsolute_of_slash_not_mem hmore), hanchor]

theorem ofText_text_append {path : Path} {last more : Text} (habsolute : path.isAbsolute = true)
    (hproper : (path.child last).IsProper) (hmore : '/' ∉ more) :
    ofText ((path.child last).text ++ more) = path.child (last ++ more) := by
  have hanchor := anchor_ofText_text_append hproper hmore
  have hsegments : (ofText ((path.child last).text ++ more)).segments =
      path.segments ++ [last ++ more] := by
    obtain ⟨hbefore, hlast⟩ := List.forall_mem_append.mp hproper
    rw [@segments_ofText_text_append (path.child last) habsolute]
    exact steps_joinSegments_append hbefore (hlast last (List.mem_singleton.mpr rfl)) hmore
  generalize ofText ((path.child last).text ++ more) = longer at hanchor hsegments
  obtain ⟨anchor, segments⟩ := longer
  rw [child, ← hsegments]
  exact congrArg (Path.mk · segments) hanchor

theorem dropLast_segments_ofText_append {path : Path} (habsolute : path.isAbsolute = true)
    (hproper : path.IsProper) {more : Text} (hmore : '/' ∉ more) :
    (ofText (path.text ++ more)).segments.dropLast = path.segments.dropLast := by
  obtain ⟨anchor, segments⟩ := path
  cases segments using List.reverseRec with
  | nil =>
      rw [segments_ofText_text_append habsolute]
      exact dropLast_steps_of_slash_not_mem hmore
  | append_singleton before last _ =>
      change (ofText (((⟨anchor, before⟩ : Path).child last).text ++ more)).segments.dropLast = _
      rw [@ofText_text_append ⟨anchor, before⟩ last more habsolute hproper hmore]
      simp [child]

end Path

/-! ## Directory and file name -/

namespace Spelling

theorem leading_prefix (spelling : Text) : leading spelling <+: spelling := by
  have hsuffix : (leading spelling).reverse <:+ spelling.reverse := by
    rw [leading, List.reverse_reverse]
    exact (List.dropWhile_suffix _).trans
      ((List.dropWhile_suffix _).trans (List.dropWhile_suffix _))
  exact List.reverse_suffix.mp hsuffix

theorem isAbsolute_directory (spelling : Text) :
    isAbsolute (directory spelling) = isAbsolute spelling := by
  unfold directory
  simp only
  split
  · next hleading =>
      obtain ⟨rest, hspelling⟩ := leading_prefix spelling
      cases hbefore : leading spelling with
      | nil => simp [hbefore] at hleading
      | cons c before =>
          rw [← hspelling, hbefore]
          simp [isAbsolute, List.isPrefixOf]
  · split
    · next hslash => exact hslash.symm
    · next hslash => exact (Bool.eq_false_iff.mpr hslash).symm

theorem directory_ne_nil (spelling : Text) : directory spelling ≠ [] := by
  unfold directory
  simp only
  split
  · next hleading => simpa using hleading
  · split <;> simp [Path.dot]

theorem spelling_eq_append (spelling : Text) :
    ∃ between after : Text, spelling = leading spelling ++ between ++ fileName spelling ++ after ∧
      (∀ c ∈ between, c = '/') ∧ (∀ c ∈ after, c = '/') ∧
      (between = [] → leading spelling = []) := by
  have hslash : ∀ {text : Text} {c : Char}, c ∈ (text.takeWhile isSlash).reverse → c = '/' :=
    fun hmem => by simpa [isSlash] using List.mem_takeWhile_imp (List.mem_reverse.mp hmem)
  refine ⟨(((spelling.reverse.dropWhile isSlash).dropWhile fun c => !isSlash c).takeWhile
      isSlash).reverse, (spelling.reverse.takeWhile isSlash).reverse, ?_, fun c => hslash,
    fun c => hslash, fun hbetween => ?_⟩
  · rw [leading, fileName, ← List.reverse_append, List.takeWhile_append_dropWhile,
      ← List.reverse_append, List.takeWhile_append_dropWhile, ← List.reverse_append,
      List.takeWhile_append_dropWhile, List.reverse_reverse]
  · -- What stands before the file name ends in a slash, if it is not empty.
    cases hbefore : (spelling.reverse.dropWhile isSlash).dropWhile fun c => !isSlash c with
    | nil => simp [leading, hbefore]
    | cons c rest =>
        have hslash : isSlash c = true := by
          simpa [hbefore] using List.head?_dropWhile_not (fun c => !isSlash c)
            (spelling.reverse.dropWhile isSlash)
        simp [hbefore, hslash] at hbetween

theorem not_mem_fileName (spelling : Text) : '/' ∉ fileName spelling := by
  intro hslash
  rw [fileName, List.mem_reverse] at hslash
  simpa [isSlash] using List.mem_takeWhile_imp hslash

end Spelling

namespace Path

theorem steps_slashes_append {slashes : Text} (h : ∀ c ∈ slashes, c = '/') (text : Text) :
    steps (slashes ++ text) = steps text := by
  induction slashes with
  | nil => rfl
  | cons c rest ih =>
      obtain ⟨rfl, hrest⟩ := List.forall_mem_cons.mp h
      rw [List.cons_append, steps_cons_slash, ih hrest]

theorem steps_append_slashes {slashes : Text} (h : ∀ c ∈ slashes, c = '/') (text : Text) :
    steps (text ++ slashes) = steps text := by
  have hnone : steps slashes = [] := by
    rw [← List.append_nil slashes, steps_slashes_append h]
    rfl
  cases slashes with
  | nil => rw [List.append_nil]
  | cons c rest =>
      obtain ⟨rfl, -⟩ := List.forall_mem_cons.mp h
      rw [steps_append_slash, ← steps_cons_slash rest, hnone, List.append_nil]

theorem steps_directory (spelling : Text) :
    steps (Spelling.directory spelling) = steps (Spelling.leading spelling) := by
  unfold Spelling.directory
  cases hleading : Spelling.leading spelling with
  | nil =>
      simp only [List.isEmpty_nil, Bool.not_true, Bool.false_eq_true, if_false]
      split <;> rfl
  | cons c rest => rfl

theorem steps_directory_append (spelling : Text) :
    steps (Spelling.directory spelling) ++ steps (Spelling.fileName spelling) = steps spelling := by
  obtain ⟨between, after, hspelling, hbetween, hafter, hleading⟩ :=
    Spelling.spelling_eq_append spelling
  rw [steps_directory]
  conv_rhs => rw [hspelling, steps_append_slashes hafter, List.append_assoc]
  cases between with
  | nil => rw [hleading rfl, List.nil_append, List.nil_append]; rfl
  | cons c rest =>
      obtain ⟨rfl, hrest⟩ := List.forall_mem_cons.mp hbetween
      rw [List.cons_append, steps_append_slash, steps_slashes_append hrest]

theorem steps_directory_prefix (spelling : Text) :
    steps (Spelling.directory spelling) <+: steps spelling :=
  ⟨_, steps_directory_append spelling⟩

end Path

end Stylesheets
