import Mathlib.Data.List.Sort
import Stylesheets.Indented.Conversion

/-!
# Ancestors of code lines

Which block a code line lies in can be said without a stack: a line is an
ancestor of a later one when every line after it, up to that one, is indented
deeper.  The ancestors of a line form a chain, so their depths count down to
zero, and the line after it keeps an initial part of that chain.
-/

namespace Stylesheets.Indented

section Splitting

variable {α : Type} {items : List α}

theorem dropWhile_eq_filter_of_pairwise (test : α → Bool)
    (h : items.Pairwise fun first second => test first = false → test second = false) :
    items.dropWhile test = items.filter fun item => !test item := by
  induction h with
  | nil => rfl
  | @cons first rest hfirst hrest ih =>
      cases hkeep : test first with
      | true => simpa [hkeep] using ih
      | false =>
          have hall : ∀ item ∈ rest, (!test item) = true := by
            intro item hitem
            simp [hfirst item hitem hkeep]
          simp [hkeep, List.filter_eq_self.mpr hall]

theorem filter_append_filter_of_pairwise (test : α → Bool)
    (h : items.Pairwise fun first second => test first = false → test second = false) :
    items.filter test ++ items.filter (fun item => !test item) = items := by
  induction h with
  | nil => rfl
  | @cons first rest hfirst hrest ih =>
      cases hkeep : test first with
      | true => simpa [hkeep] using ih
      | false =>
          have hnone : rest.filter test = [] := by
            simpa using fun item hitem => hfirst item hitem hkeep
          simpa [hkeep, hnone] using ih

end Splitting

variable (lines : List Line)

def indentAt (number : Nat) : Nat := (lines[number]?.map Line.indent).getD 0

/-- Every line after `outer` up to `inner` is indented deeper than `outer`. -/
def IsAncestor (outer inner : Nat) : Prop :=
  outer < inner ∧ inner < lines.length ∧
    ∀ between, between ≤ inner → outer < between →
      indentAt lines outer < indentAt lines between

instance (outer inner : Nat) : Decidable (IsAncestor lines outer inner) :=
  inferInstanceAs (Decidable (_ ∧ _ ∧ _))

def ancestors (number : Nat) : List Nat :=
  ((List.range number).filter fun outer => IsAncestor lines outer number).reverse

def depthOf (number : Nat) : Nat := (ancestors lines number).length

/-- The lines whose blocks are open after a line, which may open one itself. -/
def blocksAfter (number : Nat) : List Nat :=
  if IsAncestor lines number (number + 1) then number :: ancestors lines number
  else ancestors lines number

def closedAfter (number : Nat) : List Nat :=
  (blocksAfter lines number).filter fun outer => ¬ IsAncestor lines outer (number + 1)

variable {lines}

theorem IsAncestor.of_between {outer between inner : Nat}
    (h : IsAncestor lines outer inner) (hafter : outer < between)
    (hbefore : between ≤ inner) : IsAncestor lines outer between := by
  obtain ⟨-, hinner, hdeeper⟩ := h
  refine ⟨hafter, by omega, fun other hother hlt => ?_⟩
  exact hdeeper other (hother.trans hbefore) hlt

theorem IsAncestor.trans {outer middle inner : Nat}
    (houter : IsAncestor lines outer middle)
    (hinner : IsAncestor lines middle inner) : IsAncestor lines outer inner := by
  obtain ⟨hlt, -, hdeeper⟩ := houter
  obtain ⟨hlt', hlength, hdeeper'⟩ := hinner
  refine ⟨hlt.trans hlt', hlength, fun other hother hafter => ?_⟩
  by_cases hmiddle : other ≤ middle
  · exact hdeeper other hmiddle hafter
  · have hstart := hdeeper middle (le_refl _) hlt
    have hrest := hdeeper' other hother (by omega)
    exact hstart.trans hrest

theorem IsAncestor.indentAt_lt {outer inner : Nat}
    (h : IsAncestor lines outer inner) :
    indentAt lines outer < indentAt lines inner :=
  h.2.2 inner (le_refl _) h.1

theorem not_isAncestor_length (outer : Nat) :
    ¬ IsAncestor lines outer lines.length :=
  fun h => absurd h.2.1 (lt_irrefl _)

theorem mem_ancestors {outer number : Nat} :
    outer ∈ ancestors lines number ↔ IsAncestor lines outer number := by
  simp only [ancestors, List.mem_reverse, List.mem_filter, List.mem_range,
    decide_eq_true_eq, and_iff_right_iff_imp]
  exact fun h => h.1

theorem mem_blocksAfter {outer number : Nat} :
    outer ∈ blocksAfter lines number ↔
      IsAncestor lines outer number ∨
        outer = number ∧ IsAncestor lines number (number + 1) := by
  unfold blocksAfter
  split <;> simp_all [mem_ancestors, or_comm]

theorem ancestors_pairwise (number : Nat) :
    (ancestors lines number).Pairwise (· > ·) := by
  rw [ancestors, List.pairwise_reverse]
  exact List.pairwise_lt_range.filter _

theorem blocksAfter_pairwise (number : Nat) :
    (blocksAfter lines number).Pairwise (· > ·) := by
  unfold blocksAfter
  split
  · refine List.pairwise_cons.mpr ⟨fun outer houter => ?_, ancestors_pairwise number⟩
    exact (mem_ancestors.mp houter).1
  · exact ancestors_pairwise number

@[simp] theorem ancestors_zero : ancestors lines 0 = [] := rfl

@[simp] theorem ancestors_length : ancestors lines lines.length = [] := by
  refine List.eq_nil_iff_forall_not_mem.mpr fun outer houter => ?_
  exact not_isAncestor_length outer (mem_ancestors.mp houter)

@[simp] theorem depthOf_length : depthOf lines lines.length = 0 := by
  simp [depthOf]

/-! ## From one line to the next -/

theorem isAncestor_succ_iff {outer number : Nat}
    (houter : outer ∈ blocksAfter lines number) (hlength : number + 1 < lines.length) :
    IsAncestor lines outer (number + 1) ↔
      indentAt lines outer < indentAt lines (number + 1) := by
  constructor
  · exact IsAncestor.indentAt_lt
  · intro hdeeper
    rcases mem_blocksAfter.mp houter with h | ⟨rfl, h⟩
    · refine ⟨h.1.trans (Nat.lt_succ_self _), hlength, fun between hbetween hafter => ?_⟩
      rcases Nat.eq_or_lt_of_le hbetween with rfl | hbefore
      · exact hdeeper
      · exact h.2.2 between (Nat.lt_succ_iff.mp hbefore) hafter
    · exact h

theorem filter_blocksAfter (number : Nat) :
    (blocksAfter lines number).filter (fun outer => IsAncestor lines outer (number + 1)) =
      ancestors lines (number + 1) := by
  refine ((blocksAfter_pairwise number).filter _).eq_of_mem_iff
    (ancestors_pairwise (number + 1)) fun outer => ?_
  simp only [List.mem_filter, decide_eq_true_eq, mem_blocksAfter, mem_ancestors]
  constructor
  · exact fun h => h.2
  · intro h
    refine ⟨?_, h⟩
    rcases Nat.eq_or_lt_of_le (Nat.lt_succ_iff.mp h.1) with rfl | hlt
    · exact .inr ⟨rfl, h⟩
    · exact .inl (h.of_between hlt (Nat.le_succ _))

theorem blocksAfter_chain (number : Nat) :
    (blocksAfter lines number).Pairwise fun inner outer => IsAncestor lines outer inner := by
  refine List.Pairwise.imp_of_mem ?_ (blocksAfter_pairwise number)
  intro inner outer hinner houter hlt
  rcases mem_blocksAfter.mp houter with h | ⟨rfl, -⟩
  · rcases mem_blocksAfter.mp hinner with h' | ⟨rfl, -⟩
    · exact h.of_between hlt h'.1.le
    · exact h
  · rcases mem_blocksAfter.mp hinner with h' | ⟨rfl, -⟩
    · exact absurd h'.1 (by omega)
    · exact absurd hlt (lt_irrefl _)

/-- Leaving blocks from the innermost on ends exactly those that the next line is not in. -/
theorem dropWhile_blocksAfter {number : Nat} (hlength : number + 1 < lines.length) :
    (blocksAfter lines number).dropWhile
        (fun outer => indentAt lines (number + 1) ≤ indentAt lines outer) =
      ancestors lines (number + 1) := by
  have hinside : ∀ outer ∈ blocksAfter lines number,
      (decide (IsAncestor lines outer (number + 1)) =
        !decide (indentAt lines (number + 1) ≤ indentAt lines outer)) := by
    intro outer houter
    have hiff := isAncestor_succ_iff houter hlength
    by_cases hdeeper : IsAncestor lines outer (number + 1)
    · simpa [hdeeper] using hiff.mp hdeeper
    · simpa [hdeeper] using mt hiff.mpr hdeeper
  rw [← filter_blocksAfter, List.filter_congr hinside]
  refine dropWhile_eq_filter_of_pairwise _ ?_
  refine (blocksAfter_chain number).imp fun hchain hinner => ?_
  simp only [decide_eq_false_iff_not, not_le] at hinner ⊢
  exact hchain.indentAt_lt.trans hinner

theorem blocksAfter_eq_append (number : Nat) :
    blocksAfter lines number =
      closedAfter lines number ++ ancestors lines (number + 1) := by
  rw [closedAfter, ← filter_blocksAfter]
  have hpairwise : (blocksAfter lines number).Pairwise fun inner outer =>
      decide (¬ IsAncestor lines inner (number + 1)) = false →
        decide (¬ IsAncestor lines outer (number + 1)) = false :=
    (blocksAfter_chain number).imp fun hchain hinner => by
      simp only [decide_eq_false_iff_not, not_not] at hinner ⊢
      exact hchain.trans hinner
  have hsplit := filter_append_filter_of_pairwise
    (fun outer => ¬ IsAncestor lines outer (number + 1)) hpairwise
  simpa using hsplit.symm

theorem ancestors_of_cons {number inner : Nat} {outer : List Nat}
    (h : ancestors lines number = inner :: outer) :
    ancestors lines inner = outer := by
  have hinner : IsAncestor lines inner number := mem_ancestors.mp (by simp [h])
  have hpairwise : (ancestors lines number).Pairwise (· > ·) := ancestors_pairwise number
  rw [h, List.pairwise_cons] at hpairwise
  refine (ancestors_pairwise inner).eq_of_mem_iff hpairwise.2 fun other => ?_
  have hmem : other ∈ inner :: outer ↔ IsAncestor lines other number := by
    rw [← h]
    exact mem_ancestors
  rw [mem_ancestors]
  constructor
  · intro hother
    refine (List.mem_cons.mp (hmem.mpr (hother.trans hinner))).resolve_left ?_
    exact hother.1.ne
  · intro hother
    have hnumber := hmem.mp (List.mem_cons_of_mem _ hother)
    exact hnumber.of_between (hpairwise.1 other hother) hinner.1.le

theorem map_depthOf_ancestors (number : Nat) :
    (ancestors lines number).map (depthOf lines) =
      (List.range (depthOf lines number)).reverse := by
  induction number using Nat.strong_induction_on with
  | _ number ih =>
      cases hchain : ancestors lines number with
      | nil => simp [depthOf, hchain]
      | cons inner outer =>
          have hinner : inner ∈ ancestors lines number := by simp [hchain]
          have hlt : inner < number := (mem_ancestors.mp hinner).1
          have hdepth : depthOf lines inner = outer.length := by
            rw [depthOf, ancestors_of_cons hchain]
          have hrest := ih inner hlt
          rw [ancestors_of_cons hchain, hdepth] at hrest
          rw [List.map_cons, hrest, hdepth, depthOf, hchain]
          simp [List.range_succ]

theorem map_depthOf_blocksAfter (number : Nat) :
    (blocksAfter lines number).map (depthOf lines) =
      (List.range (blocksAfter lines number).length).reverse := by
  unfold blocksAfter
  split
  · simp [map_depthOf_ancestors, depthOf, List.range_succ]
  · simp [map_depthOf_ancestors, depthOf]

theorem length_blocksAfter (number : Nat) :
    (blocksAfter lines number).length =
      depthOf lines number + if IsAncestor lines number (number + 1) then 1 else 0 := by
  unfold blocksAfter depthOf
  split <;> simp

theorem length_closedAfter (number : Nat) :
    depthOf lines (number + 1) + (closedAfter lines number).length =
      depthOf lines number + if IsAncestor lines number (number + 1) then 1 else 0 := by
  rw [← length_blocksAfter, blocksAfter_eq_append, List.length_append, depthOf]
  omega

theorem closings_eq_map_closedAfter (number : Nat) :
    closings (blocksAfter lines number).length (depthOf lines (number + 1)) =
      (closedAfter lines number).map fun outer => .close (depthOf lines outer) := by
  have hlength : (blocksAfter lines number).length =
      depthOf lines (number + 1) + (closedAfter lines number).length := by
    rw [length_closedAfter, length_blocksAfter]
  have hdepths : (blocksAfter lines number).map (depthOf lines) = _ :=
    map_depthOf_blocksAfter number
  rw [hlength, blocksAfter_eq_append, List.map_append, map_depthOf_ancestors,
    List.range_add, List.reverse_append] at hdepths
  have hclosed := List.append_cancel_right hdepths
  rw [closings, hlength, Nat.add_sub_cancel_left, List.range'_eq_map_range, ← hclosed,
    List.map_map]
  rfl

end Stylesheets.Indented
