import Mathlib.Data.List.MinMax
import Stylesheets.Path.Root
import Stylesheets.Proofs.Path.Normal

/-!
# The root that holds a directory

A root holds a directory if the directory is the root or lies below it.  The
root that is taken for a directory is the one with the longest written form
among those that the directory's begins with.  It is the deepest root that
holds the directory, unless a longer one is cut off: its last name is only a
beginning of the name that the directory has in its place.
-/

namespace Stylesheets.Path

theorem longestRoot?_eq_argmax (directory : Path) (roots : List Path) :
    directory.longestRoot? roots =
      (roots.filter directory.startsWithRoot).argmax fun root => root.text.length := by
  have hlonger : longer = List.argAux fun root held => held.text.length < root.text.length := by
    funext best root
    cases best <;> rfl
  rw [longestRoot?, hlonger]
  rfl

theorem mem_of_longestRoot? {directory root : Path} {roots : List Path}
    (h : directory.longestRoot? roots = some root) : root ∈ roots := by
  rw [longestRoot?_eq_argmax] at h
  exact (List.mem_filter.mp (List.argmax_mem h)).1

theorem longestRoot_mem (directory : Path) (roots : List Path) (fallback : Path) :
    directory.longestRoot roots fallback ∈ fallback :: roots := by
  rw [longestRoot]
  cases hfound : directory.longestRoot? roots with
  | none => exact List.mem_cons_self
  | some root => exact List.mem_cons_of_mem _ (mem_of_longestRoot? hfound)

def cutsName : List Text → List Text → Bool
  | name :: rest, other :: more =>
      if rest.isEmpty then name != other && name.isPrefixOf other
      else name == other && cutsName rest more
  | _, _ => false

theorem not_prefix_of_cutsName {segments more : List Text} (h : cutsName segments more = true) :
    ¬ segments <+: more := by
  induction segments generalizing more with
  | nil => simp [cutsName] at h
  | cons name rest ih =>
      cases more with
      | nil => simp [cutsName] at h
      | cons other more =>
          rw [List.cons_prefix_cons]
          rintro ⟨rfl, hrest⟩
          rw [cutsName] at h
          split at h
          · simp at h
          · exact ih (by simpa using h) hrest

theorem cutsName_append {segments more : List Text} (h : cutsName segments more = true)
    (rest : List Text) : cutsName segments (more ++ rest) = true := by
  induction segments generalizing more with
  | nil => simp [cutsName] at h
  | cons name segments ih =>
      cases more with
      | nil => simp [cutsName] at h
      | cons other more =>
          rw [List.cons_append, cutsName]
          rw [cutsName] at h
          split at h
          · next hlast => rw [if_pos hlast, h]
          · next hlater =>
              rw [Bool.and_eq_true] at h
              rw [if_neg hlater, h.1, ih h.2, Bool.and_self]

theorem prefix_append_cons_iff {mark : Char} {name : Text} (h : mark ∉ name) (other rest : Text) :
    name <+: other ++ mark :: rest ↔ name <+: other := by
  induction name generalizing other with
  | nil => simp
  | cons c name ih =>
      rw [List.mem_cons, not_or] at h
      cases other with
      | nil => simp [Ne.symm h.1]
      | cons d other => simp [ih h.2 other]

theorem append_cons_prefix_iff {mark : Char} {name other : Text} (hname : mark ∉ name)
    (hother : mark ∉ other) (rest more : Text) :
    name ++ mark :: rest <+: other ++ mark :: more ↔ name = other ∧ rest <+: more := by
  induction name generalizing other with
  | nil =>
      cases other with
      | nil => simp
      | cons d other =>
          rw [List.mem_cons, not_or] at hother
          simp [hother.1]
  | cons c name ih =>
      rw [List.mem_cons, not_or] at hname
      cases other with
      | nil => simp [Ne.symm hname.1]
      | cons d other =>
          rw [List.mem_cons, not_or] at hother
          simp [ih hname.2 hother.2, and_assoc]

theorem joinSegments_prefix_iff {segments more : List Text}
    (h : ∀ segment ∈ segments, isStep segment = true ∧ '/' ∉ segment)
    (hmore : ∀ segment ∈ more, isStep segment = true ∧ '/' ∉ segment) :
    joinSegments segments <+: joinSegments more ↔
      segments <+: more ∨ cutsName segments more = true := by
  induction segments generalizing more with
  | nil => simp [joinSegments]
  | cons name rest ih =>
      obtain ⟨⟨hstep, hname⟩, hrest⟩ := List.forall_mem_cons.mp h
      cases more with
      | nil =>
          have hnonempty : name ≠ [] := by
            rintro rfl
            simp [isStep] at hstep
          cases rest with
          | nil => simpa [joinSegments, cutsName] using hnonempty
          | cons second rest => simp [joinSegments, cutsName]
      | cons other more =>
          obtain ⟨⟨-, hother⟩, hlater⟩ := List.forall_mem_cons.mp hmore
          have hends : name <+: other ↔
              [name] <+: other :: more ∨ cutsName [name] (other :: more) = true := by
            by_cases hsame : name = other
            · simp [hsame]
            · simp [cutsName, hsame]
          cases rest with
          | nil =>
              rw [← hends]
              cases more with
              | nil => simp [joinSegments]
              | cons next more =>
                  rw [joinSegments_cons_cons]
                  simpa [joinSegments] using prefix_append_cons_iff hname other _
          | cons second rest =>
              rw [joinSegments_cons_cons]
              cases more with
              | nil =>
                  have hnot :
                      ¬ name ++ '/' :: joinSegments (second :: rest) <+: joinSegments [other] := by
                    intro hprefix
                    have hslash : '/' ∈ joinSegments [other] := hprefix.subset (by simp)
                    exact hother (by simpa [joinSegments] using hslash)
                  simp [hnot, cutsName]
              | cons next more =>
                  rw [joinSegments_cons_cons, append_cons_prefix_iff hname hother, ih hrest hlater]
                  simp [cutsName, and_or_left]

/-! ## Roots and their written forms -/

def holds (root directory : Path) : Bool := (root.below? directory).isSome

/-- Whether the directory's written form begins with the root's, but the root does not hold it. -/
def isCutOff (root directory : Path) : Bool :=
  if root.anchor = directory.anchor then cutsName root.segments directory.segments
  else root == ⟨.root, []⟩ && directory.anchor == .doubleRoot

theorem below?_eq_some_iff {root directory : Path} {position : List Text} :
    root.below? directory = some position ↔ directory = root.descend position := by
  obtain ⟨anchor, segments⟩ := root
  obtain ⟨other, more⟩ := directory
  by_cases hanchor : anchor = other
  · simp [below?, descend, hanchor, List.isPrefixOf?_eq_some_iff_append_eq, eq_comm]
  · simp [below?, descend, hanchor, Ne.symm hanchor]

theorem holds_iff {root directory : Path} :
    root.holds directory = true ↔
      root.anchor = directory.anchor ∧ root.segments <+: directory.segments := by
  simp only [holds, Option.isSome_iff_exists, below?_eq_some_iff]
  constructor
  · rintro ⟨position, rfl⟩
    exact ⟨rfl, List.prefix_append _ _⟩
  · rintro ⟨hanchor, position, hsegments⟩
    refine ⟨position, ?_⟩
    obtain ⟨anchor, segments⟩ := directory
    simp [descend, hanchor, hsegments]

theorem not_holds_of_isCutOff {root directory : Path} (h : root.isCutOff directory = true) :
    root.holds directory = false := by
  rw [Bool.eq_false_iff, Ne, holds_iff]
  rintro ⟨hanchor, hsegments⟩
  rw [isCutOff, if_pos hanchor] at h
  exact not_prefix_of_cutsName h hsegments

theorem joinSegments_prefix_slash_iff {segments : List Text} (rest : Text)
    (h : ∀ segment ∈ segments, isStep segment = true ∧ '/' ∉ segment) :
    joinSegments segments <+: '/' :: rest ↔ segments = [] := by
  have hsteps := steps_joinSegments h
  have hslashes := takeWhile_joinSegments h
  cases hjoined : joinSegments segments with
  | nil =>
      rw [hjoined] at hsteps
      simp [← hsteps, steps, isStep]
  | cons c joined =>
      have hnonempty : segments ≠ [] := by
        rintro rfl
        simp [joinSegments] at hjoined
      have hother : c ≠ '/' := by
        rintro rfl
        simp [hjoined] at hslashes
      simp [hnonempty, hother]

theorem not_slash_prefix_joinSegments {segments : List Text} (rest : Text)
    (h : ∀ segment ∈ segments, isStep segment = true ∧ '/' ∉ segment) :
    ¬ '/' :: rest <+: joinSegments segments := by
  rintro ⟨after, hjoined⟩
  have hslashes := takeWhile_joinSegments h
  simp [← hjoined] at hslashes

theorem startsWithRoot_iff {root directory : Path} (hroot : root.isAbsolute = true)
    (hrootProper : root.IsProper) (hdirectory : directory.isAbsolute = true)
    (hproper : directory.IsProper) :
    directory.startsWithRoot root = true ↔
      root.holds directory = true ∨ root.isCutOff directory = true := by
  rw [startsWithRoot, List.isPrefixOf_iff_prefix, holds_iff, isCutOff]
  obtain ⟨anchor, segments⟩ := root
  obtain ⟨other, more⟩ := directory
  have hjoined := joinSegments_prefix_iff hrootProper hproper
  cases anchor with
  | relative => simp [isAbsolute] at hroot
  | root =>
      cases other with
      | relative => simp [isAbsolute] at hdirectory
      | root => simpa [text, Anchor.text] using hjoined
      | doubleRoot =>
          have hempty := joinSegments_prefix_slash_iff (joinSegments more) hrootProper
          simpa [text, Anchor.text] using hempty
  | doubleRoot =>
      cases other with
      | relative => simp [isAbsolute] at hdirectory
      | root =>
          have hother := not_slash_prefix_joinSegments (joinSegments segments) hproper
          simpa [text, Anchor.text] using hother
      | doubleRoot => simpa [text, Anchor.text] using hjoined

/-! ## The deepest of the roots -/

def deepestRoot? (directory : Path) (roots : List Path) : Option Path :=
  (roots.filter fun root => root.holds directory).argmax fun root => root.segments.length

def deepestRoot (directory : Path) (roots : List Path) (fallback : Path) : Path :=
  (directory.deepestRoot? roots).getD fallback

/-- Every root that is cut off is shorter than one that holds the directory. -/
def CutOffIsShorter (directory : Path) (roots : List Path) : Prop :=
  ∀ root ∈ roots, root.isCutOff directory = true →
    ∃ other ∈ roots, other.holds directory = true ∧ root.text.length < other.text.length

theorem argmax_filter_eq_none_iff {roots : List Path} {keeps : Path → Bool} {size : Path → Nat} :
    (roots.filter keeps).argmax size = none ↔ ∀ root ∈ roots, keeps root = false := by
  simp [List.argmax_eq_none, List.filter_eq_nil_iff]

theorem of_argmax_filter_eq_some {roots : List Path} {keeps : Path → Bool} {size : Path → Nat}
    {root : Path} (h : (roots.filter keeps).argmax size = some root) :
    root ∈ roots ∧ keeps root = true ∧
      ∀ other ∈ roots, keeps other = true → size other ≤ size root := by
  obtain ⟨hroot, hkept⟩ := List.mem_filter.mp (List.argmax_mem h)
  exact ⟨hroot, hkept, fun other hother hkeeps =>
    List.le_of_mem_argmax (List.mem_filter.mpr ⟨hother, hkeeps⟩) h⟩

theorem exists_longestRoot? {root directory : Path} {roots : List Path} (hroot : root ∈ roots)
    (hstarts : directory.startsWithRoot root = true) :
    ∃ longest, directory.longestRoot? roots = some longest := by
  rw [← Option.ne_none_iff_exists', longestRoot?_eq_argmax, Ne, argmax_filter_eq_none_iff]
  intro hnone
  simp [hnone root hroot] at hstarts

theorem eq_of_holds {root other directory : Path} (h : root.holds directory = true)
    (hother : other.holds directory = true)
    (hlength : root.segments.length = other.segments.length) : root = other := by
  obtain ⟨hanchor, hsegments⟩ := holds_iff.mp h
  obtain ⟨hotherAnchor, hotherSegments⟩ := holds_iff.mp hother
  have hsame : root.segments = other.segments :=
    (List.prefix_of_prefix_length_le hsegments hotherSegments hlength.le).eq_of_length hlength
  cases root
  cases other
  simp_all

theorem exists_deepestRoot? {root directory : Path} {roots : List Path} (hroot : root ∈ roots)
    (hholds : root.holds directory = true) :
    ∃ deepest, directory.deepestRoot? roots = some deepest := by
  rw [← Option.ne_none_iff_exists', deepestRoot?, Ne, argmax_filter_eq_none_iff]
  intro hnone
  simp [hnone root hroot] at hholds

theorem deepestRoot?_eq_some_iff {root directory : Path} {roots : List Path} :
    directory.deepestRoot? roots = some root ↔ root ∈ roots ∧ root.holds directory = true ∧
      ∀ other ∈ roots, other.holds directory = true →
        other.segments.length ≤ root.segments.length := by
  refine ⟨of_argmax_filter_eq_some, fun ⟨hroot, hholds, hdepth⟩ => ?_⟩
  obtain ⟨deepest, hfound⟩ := exists_deepestRoot? hroot hholds
  obtain ⟨hdeepest, hdeepestHolds, hmax⟩ := of_argmax_filter_eq_some hfound
  have hlength := (hdepth deepest hdeepest hdeepestHolds).antisymm (hmax root hroot hholds)
  rw [hfound, eq_of_holds hdeepestHolds hholds hlength]

theorem deepestRoot?_eq_of_perm {directory : Path} {order roots : List Path}
    (h : order.Perm roots) :
    directory.deepestRoot? order = directory.deepestRoot? roots := by
  ext root
  simp only [deepestRoot?_eq_some_iff, h.mem_iff]

theorem text_prefix_of_holds {root other directory : Path} (habsolute : root.isAbsolute = true)
    (hroot : root.holds directory = true) (hother : other.holds directory = true)
    (hlength : root.segments.length ≤ other.segments.length) : root.text <+: other.text := by
  obtain ⟨hanchor, hsegments⟩ := holds_iff.mp hroot
  obtain ⟨hotherAnchor, hotherSegments⟩ := holds_iff.mp hother
  obtain ⟨names, hnames⟩ := List.prefix_of_prefix_length_le hsegments hotherSegments hlength
  have hdescend : other = root.descend names := by
    obtain ⟨anchor, segments⟩ := other
    simp [descend, hnames, hanchor, ← hotherAnchor]
  have hprefix := text_prefix_descend habsolute (List.nil_prefix : [] <+: names)
  simpa [hdescend, descend] using hprefix

section

variable {directory : Path} {roots : List Path}
  (hroots : ∀ root ∈ roots, root.IsNormal) (hdirectory : directory.IsNormal)

include hroots hdirectory

theorem startsWithRoot_iff_of_mem {root : Path} (hroot : root ∈ roots) :
    directory.startsWithRoot root = true ↔
      root.holds directory = true ∨ root.isCutOff directory = true :=
  startsWithRoot_iff (hroots root hroot).isAbsolute (hroots root hroot).isProper
    hdirectory.isAbsolute hdirectory.isProper

theorem cutOffIsShorter_of_eq (h : directory.longestRoot? roots = directory.deepestRoot? roots) :
    directory.CutOffIsShorter roots := by
  intro root hroot hcut
  have hstarts := (startsWithRoot_iff_of_mem hroots hdirectory hroot).mpr (.inr hcut)
  obtain ⟨longest, hfound⟩ := exists_longestRoot? hroot hstarts
  obtain ⟨-, hholds, -⟩ := of_argmax_filter_eq_some (h.symm.trans hfound)
  rw [longestRoot?_eq_argmax] at hfound
  obtain ⟨hlongest, hbegins, hmax⟩ := of_argmax_filter_eq_some hfound
  refine ⟨longest, hlongest, hholds, (hmax root hroot hstarts).lt_of_ne fun hlength => ?_⟩
  -- Of one length, both written forms would be the same beginning of the directory's.
  have htext : root.text = longest.text :=
    (List.prefix_of_prefix_length_le (List.isPrefixOf_iff_prefix.mp hstarts)
      (List.isPrefixOf_iff_prefix.mp hbegins) hlength.le).eq_of_length hlength
  have hsame := text_injective (hroots root hroot).isProper (hroots longest hlongest).isProper htext
  rw [← hsame, not_holds_of_isCutOff hcut] at hholds
  cases hholds

theorem deepestRoot?_eq_of_holds {longest : Path} (h : directory.longestRoot? roots = some longest)
    (hholds : longest.holds directory = true) : directory.deepestRoot? roots = some longest := by
  rw [longestRoot?_eq_argmax] at h
  obtain ⟨hlongest, -, hmax⟩ := of_argmax_filter_eq_some h
  obtain ⟨deepest, hfound⟩ := exists_deepestRoot? hlongest hholds
  obtain ⟨hdeepest, hdeepestHolds, hdepth⟩ := of_argmax_filter_eq_some hfound
  have hstarts := (startsWithRoot_iff_of_mem hroots hdirectory hdeepest).mpr (.inl hdeepestHolds)
  have hprefix := text_prefix_of_holds (hroots longest hlongest).isAbsolute hholds hdeepestHolds
    (hdepth longest hlongest hholds)
  have htext := hprefix.eq_of_length_le (hmax deepest hdeepest hstarts)
  rw [hfound,
    text_injective (hroots longest hlongest).isProper (hroots deepest hdeepest).isProper htext]

theorem longestRoot?_eq_of_cutOffIsShorter (h : directory.CutOffIsShorter roots) :
    directory.longestRoot? roots = directory.deepestRoot? roots := by
  have hstarts := fun root hroot =>
    @startsWithRoot_iff_of_mem directory roots hroots hdirectory root hroot
  cases hlongest : directory.longestRoot? roots with
  | none =>
      refine (argmax_filter_eq_none_iff.mpr fun root hroot => ?_).symm
      rw [Bool.eq_false_iff]
      intro hholds
      obtain ⟨longest, hfound⟩ := exists_longestRoot? hroot ((hstarts root hroot).mpr (.inl hholds))
      simp [hlongest] at hfound
  | some longest =>
      have hfound := hlongest
      rw [longestRoot?_eq_argmax] at hfound
      obtain ⟨hmem, hbegins, hmax⟩ := of_argmax_filter_eq_some hfound
      refine (deepestRoot?_eq_of_holds hroots hdirectory hlongest ?_).symm
      rcases (hstarts longest hmem).mp hbegins with hholds | hcut
      · exact hholds
      · obtain ⟨other, hother, hotherHolds, hlonger⟩ := h longest hmem hcut
        have hatMost := hmax other hother ((hstarts other hother).mpr (.inl hotherHolds))
        omega

theorem longestRoot?_eq_deepestRoot?_iff :
    directory.longestRoot? roots = directory.deepestRoot? roots ↔ directory.CutOffIsShorter roots :=
  ⟨cutOffIsShorter_of_eq hroots hdirectory, longestRoot?_eq_of_cutOffIsShorter hroots hdirectory⟩

theorem cutsName_of_longestRoot? {longest root : Path}
    (h : directory.longestRoot? roots = some longest) (hnot : longest.holds directory = false)
    (hroot : root ∈ roots) (hholds : root.holds directory = true) :
    longest.anchor = directory.anchor ∧ cutsName longest.segments directory.segments = true := by
  rw [longestRoot?_eq_argmax] at h
  obtain ⟨hlongest, hbegins, hmax⟩ := of_argmax_filter_eq_some h
  have hcut : longest.isCutOff directory = true := by
    simpa [hnot] using (startsWithRoot_iff_of_mem hroots hdirectory hlongest).mp hbegins
  unfold isCutOff at hcut
  split at hcut
  · next hanchor => exact ⟨hanchor, hcut⟩
  · -- Only the root itself is cut off by an anchor, and two slashes are longer than one.
    simp only [Bool.and_eq_true, beq_iff_eq] at hcut
    have hatMost := hmax root hroot
      ((startsWithRoot_iff_of_mem hroots hdirectory hroot).mpr (.inl hholds))
    have hdouble : root.anchor = .doubleRoot := (holds_iff.mp hholds).1.trans hcut.2
    simp [hcut.1, text, Anchor.text, hdouble, joinSegments] at hatMost

end

theorem eq_of_forall_getD {first second : Option Path}
    (h : ∀ fallback, first.getD fallback = second.getD fallback) : first = second := by
  have hchild : ∀ root : Path, root.child [] ≠ root := fun root hsame => by
    simpa [child] using congrArg (fun path : Path => path.segments.length) hsame
  cases first with
  | none =>
      cases second with
      | none => rfl
      | some root => exact absurd (h (root.child [])) (hchild root)
  | some root =>
      cases second with
      | none => exact absurd (h (root.child [])).symm (hchild root)
      | some other => exact congrArg some (h root)

theorem longestRoot_eq_deepestRoot_iff (directory : Path) (roots : List Path) :
    (∀ fallback, directory.longestRoot roots fallback = directory.deepestRoot roots fallback) ↔
      directory.longestRoot? roots = directory.deepestRoot? roots :=
  ⟨eq_of_forall_getD, fun h fallback => congrArg (·.getD fallback) h⟩

end Stylesheets.Path
