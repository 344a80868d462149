import Mathlib.Order.Bounds.Basic
import Stylesheets.Import.Content
import Stylesheets.Proofs.Indented.Nesting
import Stylesheets.Proofs.Indented.Scanning

/-!
# The off-side rule

Whether a text can be converted depends on the indentations of its code lines
alone, and on the commas at their ends.  A code line breaks the rule if it is
deeper than a line that goes on after a comma, or if it is not deeper than the
line before and stands beside no earlier line.  The layout stops at the first
such line: as long as there is none, every open block expects the indentation
of the line that the next block was opened by.
-/

namespace Stylesheets.Indented

def Line.statement (line : Line) : Text := spellOut (splitComment line.text).1

variable (lines : List Line)

def isContinuedAt (number : Nat) : Bool :=
  lines[number]?.any fun line => isContinued line.statement

/-- Some earlier line has the same indentation, and no line between is less deep. -/
def HasPeer (number : Nat) : Prop :=
  ∃ earlier, earlier < number ∧ indentAt lines earlier = indentAt lines number ∧
    ∀ between, between < number → earlier < between →
      indentAt lines number ≤ indentAt lines between

instance (number : Nat) : Decidable (HasPeer lines number) :=
  inferInstanceAs (Decidable (∃ earlier, earlier < number ∧ _ ∧ _))

/-- A line is deeper than one that goes on after a comma, or dedents to where no line stands. -/
def BreaksOffSide : Nat → Prop
  | 0 => False
  | number + 1 =>
    number + 1 < lines.length ∧
      (indentAt lines number < indentAt lines (number + 1) ∧
          isContinuedAt lines number = true ∨
        indentAt lines (number + 1) ≤ indentAt lines number ∧
          ¬ HasPeer lines (number + 1))

instance : ∀ index, Decidable (BreaksOffSide lines index)
  | 0 => inferInstanceAs (Decidable False)
  | _ + 1 => inferInstanceAs (Decidable (_ ∧ _))

/-- The blocks around a line, given the lines that opened them, innermost first. -/
def blocksAround : Nat → List Nat → List Block
  | _, [] => []
  | inner, outer :: rest =>
    ⟨indentAt lines outer, some (indentAt lines inner)⟩ :: blocksAround outer rest

def outermost : Nat → List Nat → Nat
  | inner, [] => inner
  | _, outer :: rest => outermost outer rest

def nestingAround (inner : Nat) (outers : List Nat) : Nesting where
  blocks := blocksAround lines inner outers
  outerIndent := some (indentAt lines (outermost inner outers))

/-- The nesting in which a line is placed, if no line so far breaks the rule. -/
def nestingAt (number : Nat) : Nesting := nestingAround lines number (ancestors lines number)

def opensAt (number : Nat) : Prop :=
  isContinuedAt lines number = false ∧ IsAncestor lines number (number + 1)

instance (number : Nat) : Decidable (opensAt lines number) :=
  inferInstanceAs (Decidable (_ ∧ _))

def nestingBefore : Nat → Nesting
  | 0 => .empty
  | number + 1 =>
    if opensAt lines number then (nestingAt lines number).opening (indentAt lines number)
    else nestingAt lines number

variable {lines}

theorem outermost_mem (inner : Nat) (outers : List Nat) :
    outermost inner outers ∈ inner :: outers := by
  induction outers generalizing inner with
  | nil => exact List.mem_singleton_self inner
  | cons outer rest ih => exact List.mem_cons_of_mem _ (ih outer)

theorem ancestors_outermost {number : Nat} {closed rest : List Nat}
    (h : ancestors lines number = closed ++ rest) :
    ancestors lines (outermost number closed) = rest := by
  induction closed generalizing number with
  | nil => exact h
  | cons outer closed ih => exact ih (ancestors_of_cons h)

theorem expected?_nestingAround (inner : Nat) (outers : List Nat) :
    (nestingAround lines inner outers).expected? = some (indentAt lines inner) := by
  cases outers <;> rfl

theorem nestingAround_congr {inner other : Nat}
    (h : indentAt lines inner = indentAt lines other) (outers : List Nat) :
    nestingAround lines inner outers = nestingAround lines other outers := by
  cases outers <;> simp [nestingAround, blocksAround, outermost, h]

theorem settle_nestingAround {indent inner : Nat} {closed rest : List Nat}
    (hclosed : ∀ outer ∈ closed, indent ≤ indentAt lines outer)
    (hrest : ∀ outer ∈ rest, indentAt lines outer < indent) :
    (nestingAround lines inner (closed ++ rest)).settle indent =
      nestingAround lines (outermost inner closed) rest := by
  induction closed generalizing inner with
  | nil =>
      refine Nesting.settle_eq_self fun block hblock => ?_
      cases rest with
      | nil => cases hblock
      | cons outer rest =>
          obtain rfl := Option.some.inj hblock
          exact hrest outer (by simp)
  | cons outer closed ih =>
      have hleft : indent ≤ indentAt lines outer := hclosed outer (by simp)
      have hinner := @ih outer fun other hother => hclosed other (by simp [hother])
      simpa [Nesting.settle, nestingAround, blocksAround, outermost, hleft] using hinner

namespace Nesting

theorem place?_of_expected {nesting : Nesting} {expected : Nat}
    (h : nesting.expected? = some expected) (indent : Nat) :
    nesting.place? indent = if indent = expected then some nesting else none := by
  obtain ⟨blocks, outerIndent⟩ := nesting
  cases blocks with
  | nil =>
      obtain rfl : outerIndent = some expected := h
      rfl
  | cons block around =>
      have hchild : block.childIndent = some expected := h
      simp [place?, hchild]

end Nesting

/-! ## Lines that stand beside another -/

theorem exists_isAncestor_of_lt {earlier number : Nat} (hlength : number < lines.length)
    (hlt : earlier < number) (hdeeper : indentAt lines earlier < indentAt lines number) :
    ∃ outer, earlier ≤ outer ∧ IsAncestor lines outer number := by
  -- A line in between that is not deeper than the earlier one is the next to be tried.
  induction hdistance : number - earlier using Nat.strong_induction_on generalizing earlier with
  | _ distance ih =>
      by_cases hancestor : IsAncestor lines earlier number
      · exact ⟨earlier, le_refl _, hancestor⟩
      · have hbetween : ∃ between, between ≤ number ∧ earlier < between ∧
            indentAt lines between ≤ indentAt lines earlier := by
          by_contra hnone
          refine hancestor ⟨hlt, hlength, fun between hbefore hafter => ?_⟩
          by_contra hshallow
          exact hnone ⟨between, hbefore, hafter, Nat.le_of_not_lt hshallow⟩
        obtain ⟨between, hbefore, hafter, hshallow⟩ := hbetween
        have hne : between ≠ number := by
          rintro rfl
          omega
        obtain ⟨outer, houter, hancestor⟩ :=
          ih (number - between) (by omega) (by omega) (by omega) rfl
        exact ⟨outer, by omega, hancestor⟩

section Dedent

variable {number : Nat}

theorem indentAt_le_of_mem_closedAfter (hlength : number + 1 < lines.length) {outer : Nat}
    (h : outer ∈ closedAfter lines number) :
    indentAt lines (number + 1) ≤ indentAt lines outer := by
  obtain ⟨hblock, hends⟩ := List.mem_filter.mp h
  have hnot : ¬ IsAncestor lines outer (number + 1) := by simpa using hends
  rw [isAncestor_succ_iff hblock hlength] at hnot
  omega

theorem not_isAncestor_of_le (h : indentAt lines (number + 1) ≤ indentAt lines number) :
    ¬ IsAncestor lines number (number + 1) :=
  fun hancestor => absurd hancestor.indentAt_lt (by omega)

theorem ancestors_eq_append (h : indentAt lines (number + 1) ≤ indentAt lines number) :
    ancestors lines number = closedAfter lines number ++ ancestors lines (number + 1) := by
  have hblocks : blocksAfter lines number = ancestors lines number := by
    rw [blocksAfter, if_neg (not_isAncestor_of_le h)]
  rw [← hblocks]
  exact blocksAfter_eq_append number

/-- A line that is not deeper stands beside the outermost of the lines it ends, or beside none. -/
theorem hasPeer_iff (hlength : number + 1 < lines.length)
    (h : indentAt lines (number + 1) ≤ indentAt lines number) :
    HasPeer lines (number + 1) ↔
      indentAt lines (number + 1) =
        indentAt lines (outermost number (closedAfter lines number)) := by
  have hsplit := ancestors_eq_append h
  have hancestors := ancestors_outermost hsplit
  have hmem := outermost_mem number (closedAfter lines number)
  generalize outermost number (closedAfter lines number) = beside at hancestors hmem
  have hbeside : beside = number ∨ IsAncestor lines beside number := by
    rcases List.mem_cons.mp hmem with hlast | hclosed
    · exact .inl hlast
    · exact .inr (mem_ancestors.mp (by simp [hsplit, hclosed]))
  have hle : indentAt lines (number + 1) ≤ indentAt lines beside := by
    rcases List.mem_cons.mp hmem with rfl | hclosed
    · exact h
    · exact indentAt_le_of_mem_closedAfter hlength hclosed
  have hdeeper : ∀ between, beside < between → between < number + 1 →
      indentAt lines beside < indentAt lines between := by
    intro between hafter hbefore
    rcases hbeside with rfl | hancestor
    · omega
    · exact hancestor.2.2 between (by omega) hafter
  have hbefore : beside < number + 1 := by
    rcases hbeside with rfl | hancestor
    · omega
    · exact hancestor.1.trans (Nat.lt_succ_self _)
  constructor
  · rintro ⟨earlier, hearlier, hsame, hbetween⟩
    by_contra hne
    rcases Nat.lt_trichotomy earlier beside with hlt | rfl | hgt
    · -- An ancestor of the line beside is one of the dedenting line too, so it is less deep.
      obtain ⟨outer, houter, hancestor⟩ :=
        exists_isAncestor_of_lt (by omega) hlt (by omega : indentAt lines earlier < _)
      have hshallow : IsAncestor lines outer (number + 1) := by
        rw [← mem_ancestors, ← hancestors]
        exact mem_ancestors.mpr hancestor
      have houterIndent := hshallow.indentAt_lt
      rcases Nat.eq_or_lt_of_le houter with rfl | hafter
      · omega
      · have hnotLess := hbetween outer hshallow.1 hafter
        omega
    · exact hne hsame.symm
    · have hdeep := hdeeper earlier hgt hearlier
      omega
  · intro hsame
    refine ⟨beside, hbefore, hsame.symm, fun between hlt hafter => ?_⟩
    have hdeep := hdeeper between hafter hlt
    omega

end Dedent

/-! ## Placing one line -/

section Placing

variable {number : Nat}

theorem indent_lt_of_mem_head? {indent : Nat} {outers : List Nat}
    (h : ∀ outer ∈ outers, indentAt lines outer < indent) (inner : Nat) :
    ∀ block ∈ (nestingAround lines inner outers).blocks.head?, block.indent < indent := by
  intro block hblock
  cases outers with
  | nil => cases hblock
  | cons outer rest =>
      obtain rfl := Option.some.inj hblock
      exact h outer (by simp)

theorem indentAt_lt_of_mem_ancestors {outer : Nat} (h : outer ∈ ancestors lines number) :
    indentAt lines outer < indentAt lines number :=
  (mem_ancestors.mp h).indentAt_lt

theorem isAncestor_succ_of_lt (hlength : number + 1 < lines.length)
    (h : indentAt lines number < indentAt lines (number + 1)) :
    IsAncestor lines number (number + 1) := by
  refine ⟨Nat.lt_succ_self _, hlength, fun between hbefore hafter => ?_⟩
  obtain rfl : between = number + 1 := by omega
  exact h

theorem place?_below (hlength : number + 1 < lines.length)
    (hdeeper : indentAt lines number < indentAt lines (number + 1))
    (hopens : isContinuedAt lines number = false) :
    ((nestingBefore lines (number + 1)).settle (indentAt lines (number + 1))).place?
      (indentAt lines (number + 1)) = some (nestingAt lines (number + 1)) := by
  have hancestor := isAncestor_succ_of_lt hlength hdeeper
  have hancestors : ancestors lines (number + 1) = number :: ancestors lines number := by
    rw [← dropWhile_blocksAfter hlength, blocksAfter, if_pos hancestor,
      List.dropWhile_cons_of_neg (by simpa using hdeeper)]
  rw [nestingBefore, if_pos ⟨hopens, hancestor⟩, Nesting.settle_eq_self]
  · simp [Nesting.opening, Nesting.place?, nestingAt, nestingAround, hancestors, blocksAround,
      outermost]
  · intro block hblock
    obtain rfl := Option.some.inj hblock
    exact hdeeper

theorem place?_afterComma (hdeeper : indentAt lines number < indentAt lines (number + 1))
    (hcontinued : isContinuedAt lines number = true) :
    ((nestingBefore lines (number + 1)).settle (indentAt lines (number + 1))).place?
      (indentAt lines (number + 1)) = none := by
  have hopens : ¬ opensAt lines number := fun h => by simp [h.1] at hcontinued
  rw [nestingBefore, if_neg hopens, Nesting.settle_eq_self, nestingAt,
    Nesting.place?_of_expected (expected?_nestingAround _ _), if_neg (by omega)]
  exact indent_lt_of_mem_head?
    (fun outer houter => (indentAt_lt_of_mem_ancestors houter).trans hdeeper) number

theorem settle_nestingBefore (hlength : number + 1 < lines.length)
    (h : indentAt lines (number + 1) ≤ indentAt lines number) :
    (nestingBefore lines (number + 1)).settle (indentAt lines (number + 1)) =
      nestingAround lines (outermost number (closedAfter lines number))
        (ancestors lines (number + 1)) := by
  have hopens : ¬ opensAt lines number := fun hopens => not_isAncestor_of_le h hopens.2
  rw [nestingBefore, if_neg hopens, nestingAt, ancestors_eq_append h]
  exact settle_nestingAround (fun outer => indentAt_le_of_mem_closedAfter hlength)
    (fun outer => indentAt_lt_of_mem_ancestors)

/-- A line finds its place in the nesting exactly if it does not break the rule. -/
theorem place?_nestingBefore (hlength : number < lines.length) :
    (BreaksOffSide lines number ∧
        ((nestingBefore lines number).settle (indentAt lines number)).place?
          (indentAt lines number) = none) ∨
      (¬ BreaksOffSide lines number ∧
        ((nestingBefore lines number).settle (indentAt lines number)).place?
          (indentAt lines number) = some (nestingAt lines number)) := by
  cases number with
  | zero => exact .inr ⟨id, rfl⟩
  | succ number =>
      rcases Nat.lt_or_ge (indentAt lines number) (indentAt lines (number + 1)) with
        hdeeper | hle
      · cases hcontinued : isContinuedAt lines number with
        | true =>
            exact .inl ⟨⟨hlength, .inl ⟨hdeeper, hcontinued⟩⟩,
              place?_afterComma hdeeper hcontinued⟩
        | false =>
            refine .inr ⟨?_, place?_below hlength hdeeper hcontinued⟩
            rintro ⟨-, ⟨-, hcomma⟩ | ⟨hle, -⟩⟩
            · simp [hcontinued] at hcomma
            · omega
      · rw [settle_nestingBefore hlength hle,
          Nesting.place?_of_expected (expected?_nestingAround _ _)]
        by_cases hpeer : HasPeer lines (number + 1)
        · refine .inr ⟨?_, ?_⟩
          · rintro ⟨-, ⟨hdeeper, -⟩ | ⟨-, hnone⟩⟩
            · omega
            · exact hnone hpeer
          · have hsame := (hasPeer_iff hlength hle).mp hpeer
            rw [if_pos hsame, nestingAt, nestingAround_congr hsame.symm]
        · exact .inl ⟨⟨hlength, .inr ⟨hle, hpeer⟩⟩,
            if_neg (mt (hasPeer_iff hlength hle).mpr hpeer)⟩

end Placing

/-! ## The whole layout -/

theorem nestingBefore_succ {number depth : Nat} {line : Line} {rest : List Item}
    (hline : lines[number]? = some line) (hrest : codeLines rest = lines.drop (number + 1)) :
    (if (codeOutput depth line (goesDeeper line.indent rest)).ending = .opensBlock
      then (nestingAt lines number).opening line.indent else nestingAt lines number) =
      nestingBefore lines (number + 1) := by
  have hindent : indentAt lines number = line.indent := by simp [indentAt, hline]
  have hopens : (codeOutput depth line (goesDeeper line.indent rest)).ending = .opensBlock ↔
      opensAt lines number := by
    have hending : (codeOutput depth line (goesDeeper line.indent rest)).ending =
        endingOf line.statement (goesDeeper line.indent rest) := rfl
    rw [hending, endingOf_eq_opensBlock_iff, goesDeeper_eq_isAncestor hline hrest]
    simp [opensAt, isContinuedAt, hline]
  simp only [hopens, nestingBefore, hindent]

/-- Either the layout succeeds and no line from here on breaks the rule, or it names the first. -/
theorem layOut_offSide {items : List Item} {number : Nat}
    (hitems : codeLines items = lines.drop number) :
    ((∃ output, layOut (nestingBefore lines number) items = .ok output) ∧
        ∀ later, number ≤ later → ¬ BreaksOffSide lines later) ∨
      ∃ first line, lines[first]? = some line ∧
        IsLeast {later | number ≤ later ∧ BreaksOffSide lines later} first ∧
        layOut (nestingBefore lines number) items = .error ⟨line.number, line.text⟩ := by
  induction items generalizing number with
  | nil =>
      refine .inl ⟨⟨_, rfl⟩, fun later hlater hbreaks => ?_⟩
      have hlength := List.drop_eq_nil_iff.mp (hitems.symm : lines.drop number = [])
      cases later with
      | zero => exact hbreaks
      | succ later =>
          have hlt := hbreaks.1
          omega
  | cons item rest ih =>
      cases item with
      | comment group =>
          rcases ih hitems with ⟨⟨output, hlater⟩, hnone⟩ | ⟨first, line, hline, hleast, hlater⟩
          · exact .inl ⟨⟨_, by simp [layOut, hlater, bind, Except.bind]; rfl⟩, hnone⟩
          · exact .inr ⟨first, line, hline, hleast, by simp [layOut, hlater, bind, Except.bind]⟩
      | code line =>
          obtain ⟨hline, hrest⟩ := drop_of_codeLines_cons hitems
          obtain ⟨hlength, -⟩ := List.getElem?_eq_some_iff.mp hline
          have hindent : indentAt lines number = line.indent := by simp [indentAt, hline]
          rcases place?_nestingBefore hlength with ⟨hbreaks, hplace⟩ | ⟨hkeeps, hplace⟩
          · rw [hindent] at hplace
            refine .inr ⟨number, line, hline, ⟨⟨le_refl _, hbreaks⟩, fun _ h => h.1⟩, ?_⟩
            simp [layOut, hplace]
          · rw [hindent] at hplace
            have hnext := @nestingBefore_succ lines number (nestingAt lines number).depth line
              rest hline hrest
            rcases ih hrest with
              ⟨⟨output, hlater⟩, hnone⟩ | ⟨first, next, hnextLine, hleast, hlater⟩
            · refine .inl ⟨⟨_, by simp [layOut, hplace, hnext, hlater, bind, Except.bind]; rfl⟩, ?_⟩
              intro later hle
              rcases Nat.eq_or_lt_of_le hle with rfl | hlt
              · exact hkeeps
              · exact hnone later hlt
            · refine .inr ⟨first, next, hnextLine, ?_, ?_⟩
              · obtain ⟨⟨hle, hbreaks⟩, hlower⟩ := hleast
                refine ⟨⟨Nat.le_of_succ_le hle, hbreaks⟩, fun later hlater => ?_⟩
                rcases Nat.eq_or_lt_of_le hlater.1 with rfl | hlt
                · exact absurd hlater.2 hkeeps
                · exact hlower ⟨hlt, hlater.2⟩
              · simp [layOut, hplace, hnext, hlater, bind, Except.bind]

theorem exists_lines_of_getElem? {text : Text} {number : Nat} {line : Line}
    (h : (codeLinesOf text)[number]? = some line) :
    0 < line.number ∧ ∃ raw, text.lines[line.number - 1]? = some raw ∧ line.text = raw.trim := by
  have hmem : line ∈ linesOf text :=
    (codeLines_scan_sublist (linesOf text)).subset (List.mem_of_getElem? h)
  obtain ⟨raw, index, hraw, rfl⟩ := mem_linesOf_iff.mp hmem
  exact ⟨Nat.succ_pos index, raw, hraw, rfl⟩

/--
A text in indented syntax is refused exactly if one of its code lines breaks the
off-side rule.  The fault is always the one about the first of these lines, and
names the number and the trimmed text that this line has in the text.
-/
theorem converted_eq_error_iff_breaksOffSide (text : Text) :
    ((∃ fault, Dialect.indented.converted text = .error fault) ↔
        ∃ number, BreaksOffSide (codeLinesOf text) number) ∧
      ∀ fault, Dialect.indented.converted text = .error fault ↔
        ∃ number line raw, IsLeast {number | BreaksOffSide (codeLinesOf text) number} number ∧
          (codeLinesOf text)[number]? = some line ∧ 0 < line.number ∧
          text.lines[line.number - 1]? = some raw ∧ line.text = raw.trim ∧
          fault = .evaluation (.indentation ⟨line.number, raw.trim⟩) := by
  have hitems : codeLines (scan (linesOf text)) = (codeLinesOf text).drop 0 := rfl
  rcases layOut_offSide hitems with
    ⟨⟨output, hlayout⟩, hnone⟩ | ⟨first, line, hline, hleast, hlayout⟩
  · have hconverted : Dialect.indented.converted text = .ok (outputText output) := by
      simp only [nestingBefore] at hlayout
      simp [Dialect.converted, convert, hlayout, Except.map, Except.mapError]
    simp only [hconverted, reduceCtorEq, exists_false, false_iff, not_exists]
    refine ⟨fun number => hnone number (Nat.zero_le _), fun fault number line raw h => ?_⟩
    exact hnone number (Nat.zero_le _) h.1.1
  · obtain ⟨hpositive, raw, hraw, htext⟩ := exists_lines_of_getElem? hline
    have hfirst : IsLeast {number | BreaksOffSide (codeLinesOf text) number} first := by
      simpa using hleast
    have hconverted : Dialect.indented.converted text =
        .error (.evaluation (.indentation ⟨line.number, raw.trim⟩)) := by
      simp only [nestingBefore, htext] at hlayout
      simp [Dialect.converted, convert, hlayout, Except.map, Except.mapError]
    refine ⟨iff_of_true ⟨_, hconverted⟩ ⟨first, hfirst.1⟩, fun fault => ?_⟩
    rw [hconverted, Except.error.injEq]
    constructor
    · rintro rfl
      exact ⟨first, line, raw, hfirst, hline, hpositive, hraw, htext, rfl⟩
    · rintro ⟨number, other, otherRaw, hother, hgetOther, -, -, hotherText, rfl⟩
      obtain rfl := hother.unique hfirst
      obtain rfl := Option.some.inj (hgetOther.symm.trans hline)
      rw [← htext, ← hotherText]

example :
    BreaksOffSide (codeLinesOf ".a\n    b: c\n    // note\n\n  d: e\n".toList) 2 ∧
      (codeLinesOf ".a\n    b: c\n    // note\n\n  d: e\n".toList)[2]? =
        some ⟨5, 2, "d: e".toList⟩ := by
  decide +kernel

end Stylesheets.Indented
