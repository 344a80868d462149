import Stylesheets.Proofs.Path.Normal
import Stylesheets.Proofs.Path.Spelling

/-!
# Reduced paths

A path is reduced if nothing in it can be taken back: after some double dots
come only names, and below the root there are no double dots.  The normal form
of a path is reduced, a reduced path is its own normal form, and a directory
can be replaced by its normal form before something is joined to it.
-/

namespace Stylesheets.Path

/-- Names on top of the double dots that have nothing to take back. -/
def IsSettled (anchored : Bool) (stack : List Text) : Prop :=
  ∃ names count, stack = names ++ List.replicate count doubleDot ∧ doubleDot ∉ names ∧
    (anchored = true → count = 0)

theorem isSettled_nil (anchored : Bool) : IsSettled anchored [] :=
  ⟨[], 0, rfl, List.not_mem_nil, fun _ => rfl⟩

theorem IsSettled.push {anchored : Bool} {stack : List Text} (h : IsSettled anchored stack)
    (segment : Text) : IsSettled anchored (push anchored stack segment) := by
  obtain ⟨names, count, rfl, hnames, hcount⟩ := h
  by_cases hdots : segment = doubleDot
  · unfold Path.push
    rw [if_pos hdots]
    cases names with
    | cons last before =>
        rw [List.mem_cons, not_or] at hnames
        refine ⟨before, count, ?_, hnames.2, hcount⟩
        simp [Ne.symm hnames.1]
    | nil =>
        cases anchored with
        | true =>
            obtain rfl := hcount rfl
            exact isSettled_nil true
        | false =>
            refine ⟨[], count + 1, ?_, List.not_mem_nil, nofun⟩
            cases count <;> simp [List.replicate_succ]
  · unfold Path.push
    rw [if_neg hdots]
    refine ⟨segment :: names, count, rfl, ?_, hcount⟩
    rw [List.mem_cons, not_or]
    exact ⟨Ne.symm hdots, hnames⟩

theorem IsSettled.foldl_push {anchored : Bool} {stack : List Text} (h : IsSettled anchored stack)
    (segments : List Text) : IsSettled anchored (segments.foldl (Path.push anchored) stack) := by
  induction segments generalizing stack with
  | nil => exact h
  | cons segment rest ih => exact ih (h.push segment)

theorem foldl_push_doubleDots {anchored : Bool} {count : Nat} (h : anchored = true → count = 0) :
    (List.replicate count doubleDot).foldl (push anchored) [] =
      List.replicate count doubleDot := by
  cases anchored with
  | true =>
      obtain rfl := h rfl
      rfl
  | false =>
      induction count with
      | zero => rfl
      | succ count ih =>
          rw [List.replicate_succ', List.foldl_append, ih nofun, ← List.replicate_succ']
          cases count <;> simp [push, List.replicate_succ]

theorem IsSettled.foldl_reverse {anchored : Bool} {stack : List Text}
    (h : IsSettled anchored stack) : stack.reverse.foldl (Path.push anchored) [] = stack := by
  obtain ⟨names, count, rfl, hnames, hcount⟩ := h
  have hreversed : doubleDot ∉ names.reverse := by rwa [List.mem_reverse]
  rw [List.reverse_append, List.reverse_replicate, List.foldl_append,
    foldl_push_doubleDots hcount, foldl_push_of_not_mem hreversed, List.reverse_reverse]

theorem foldl_push_normalSegments (anchored : Bool) (segments : List Text) :
    (normalSegments anchored segments).foldl (push anchored) [] =
      segments.foldl (push anchored) [] :=
  ((isSettled_nil anchored).foldl_push segments).foldl_reverse

/-- Names, and before them double dots, of which there are none below the root. -/
def IsReduced (path : Path) : Prop :=
  ∃ count names, path.segments = List.replicate count doubleDot ++ names ∧
    (∀ name ∈ names, isName name = true) ∧ (path.isAbsolute = true → count = 0)

theorem isReduced_normalize {path : Path} (h : path.IsProper) : path.normalize.IsReduced := by
  obtain ⟨names, count, hstack, hnames, hcount⟩ :=
    (isSettled_nil path.isAbsolute).foldl_push path.segments
  have hsegments :
      path.normalize.segments = List.replicate count doubleDot ++ names.reverse := by
    rw [normalize, normalSegments, hstack, List.reverse_append, List.reverse_replicate]
  refine ⟨count, names.reverse, hsegments, fun name hname => ?_, hcount⟩
  have hmem : name ∈ path.normalize.segments := by
    rw [hsegments]
    exact List.mem_append_right _ hname
  obtain ⟨hstep, hslash⟩ := h.normalize name hmem
  refine isName_of_isStep hstep ?_ hslash
  rintro rfl
  exact hnames (List.mem_reverse.mp hname)

theorem IsReduced.normalize_eq {path : Path} (h : path.IsReduced) : path.normalize = path := by
  obtain ⟨count, names, hsegments, hnames, hcount⟩ := h
  have hdots : doubleDot ∉ names := fun hmem => by simpa [Path.isName] using hnames _ hmem
  rw [Path.normalize, normalSegments, hsegments, List.foldl_append, foldl_push_doubleDots hcount,
    foldl_push_of_not_mem hdots, List.reverse_append, List.reverse_reverse, List.reverse_replicate,
    ← hsegments]

theorem normalize_eq_iff {path : Path} (h : path.IsProper) :
    path.normalize = path ↔ path.IsReduced :=
  ⟨fun hsame => hsame ▸ isReduced_normalize h, IsReduced.normalize_eq⟩

theorem normalize_append_normalize (base path : Path) :
    (base.normalize.append path).normalize = (base.append path).normalize := by
  by_cases hpath : path.isAbsolute = true
  · simp only [append_of_isAbsolute hpath]
  · have hfold := foldl_push_normalSegments base.isAbsolute base.segments
    simp only [append, if_neg hpath]
    simp only [normalize, isAbsolute, normalSegments, List.foldl_append] at hfold ⊢
    rw [hfold]

theorem normalize_append_congr {base other : Path} (h : base.normalize = other.normalize)
    (path : Path) : (base.append path).normalize = (other.append path).normalize := by
  rw [← normalize_append_normalize base, h, normalize_append_normalize]

def pieces (text : Text) : List Text := (text.dropWhile Spelling.isSlash).splitOn '/'

theorem text_eq_append {path : Path} (h : path.IsProper) (hsegments : path.segments ≠ []) :
    path.text = path.anchor.text ++ joinSegments path.segments := by
  rw [text, if_neg]
  intro hempty
  have hjoined : joinSegments path.segments = [] :=
    (List.append_eq_nil_iff.mp (List.isEmpty_iff.mp hempty)).2
  have hsteps := steps_joinSegments h
  rw [hjoined] at hsteps
  exact hsegments hsteps.symm

theorem pieces_text {path : Path} (h : path.IsProper) (hsegments : path.segments ≠ []) :
    pieces path.text = path.segments := by
  have hslashes : (joinSegments path.segments).dropWhile Spelling.isSlash =
      joinSegments path.segments := by
    have hjoined := List.takeWhile_append_dropWhile (p := Spelling.isSlash)
      (l := joinSegments path.segments)
    rwa [show (joinSegments path.segments).takeWhile Spelling.isSlash = [] from
      takeWhile_joinSegments h, List.nil_append] at hjoined
  have hanchor : (path.anchor.text ++ joinSegments path.segments).dropWhile Spelling.isSlash =
      joinSegments path.segments := by
    cases path.anchor <;> simpa [Anchor.text, Spelling.isSlash] using hslashes
  rw [pieces, text_eq_append h hsegments, hanchor, joinSegments]
  exact List.splitOn_intercalate '/' (fun segment hsegment => (h segment hsegment).2) hsegments

/--
Normalizing twice is normalizing once.  A normal form is reduced, and what
stands between its slashes are its segments if it has any; a path is its own
normal form exactly if it is reduced.  Joining to the normal form of a
directory leads to the same normal form as joining to the directory.
-/
theorem normalize_settles (text : Text) :
    (ofText (ofText text).normalize.text).normalize = (ofText text).normalize ∧
      (ofText text).normalize.IsReduced ∧
      ((ofText text).normalize.segments ≠ [] →
        pieces (ofText text).normalize.text = (ofText text).normalize.segments) ∧
      ((ofText text).normalize = ofText text ↔ (ofText text).IsReduced) ∧
      ∀ rest, Spelling.isAbsolute rest = false →
        (ofText (Spelling.join (ofText text).normalize.text [rest])).normalize =
          (ofText (Spelling.join text [rest])).normalize := by
  have hproper := isProper_ofText text
  have hread : ofText (ofText text).normalize.text = (ofText text).normalize :=
    ofText_text hproper.normalize
  have hreduced := isReduced_normalize hproper
  refine ⟨?_, hreduced, pieces_text hproper.normalize, normalize_eq_iff hproper,
    fun rest hrest => ?_⟩
  · rw [hread, hreduced.normalize_eq]
  · rw [ofText_join _ hrest, ofText_join _ hrest, hread, normalize_append_normalize]

theorem normalize_settles_climbing :
    (ofText "./../a//b/../.".toList).normalize.text = "../a".toList ∧
      Spelling.isAbsolute "..//c/".toList = false ∧
      Spelling.join "../a".toList ["..//c/".toList] = "../a/..//c/".toList ∧
      (ofText (Spelling.join "./../a//b/../.".toList ["..//c/".toList])).normalize =
        ofText "../c".toList := by
  have hnormal : (ofText "./../a//b/../.".toList).normalize.text = "../a".toList := by cbv
  have hjoin := (normalize_settles "./../a//b/../.".toList).2.2.2.2 "..//c/".toList (by decide)
  rw [hnormal] at hjoin
  exact ⟨hnormal, by decide, by decide, hjoin.symm.trans (by cbv)⟩

end Stylesheets.Path
