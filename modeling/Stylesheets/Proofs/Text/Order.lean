import Mathlib.Data.Char
import Mathlib.Data.List.Lex
import Stylesheets.Text.Basic

/-!
# Code point order

Comparing two texts by code points is comparing them as lists of characters, so
it is a linear order.  Items with different texts are sorted by their texts in
one way only, whatever order they came in.
-/

namespace Stylesheets.Text

theorem precedes_iff_lt (first second : Text) :
    first.precedes second = true ↔ first < second := by
  induction first generalizing second with
  | nil => cases second <;> simp [precedes]
  | cons a first ih =>
      cases second with
      | nil => simp [precedes]
      | cons b second =>
          have hlt : a.toNat < b.toNat ↔ a < b := Iff.rfl
          rw [List.cons_lt_cons_iff]
          by_cases h : a = b
          · simp [precedes, h, ih]
          · simp [precedes, h, hlt]

theorem notAfter_iff_le (first second : Text) :
    first.notAfter second = true ↔ first ≤ second := by
  rw [notAfter, Bool.not_eq_true', ← Bool.not_eq_true, precedes_iff_lt, not_lt]

section Sorting

variable {α : Type} (key : α → Text)

theorem pairwise_precedes_mergeSort {items : List α}
    (h : items.Pairwise fun first second => key first ≠ key second) :
    (items.mergeSort fun first second => (key first).notAfter (key second)).Pairwise
      fun first second => (key first).precedes (key second) = true := by
  have hsorted : (items.mergeSort fun first second =>
      (key first).notAfter (key second)).Pairwise
      fun first second => (key first).notAfter (key second) = true :=
    List.pairwise_mergeSort
      (fun a b c => by simpa only [notAfter_iff_le] using le_trans)
      (fun a b => by simpa only [Bool.or_eq_true, notAfter_iff_le] using le_total _ _) items
  have hdifferent := (List.mergeSort_perm items fun first second =>
    (key first).notAfter (key second)).pairwise_iff (fun h => h.symm) |>.mpr h
  refine (hsorted.and hdifferent).imp fun ⟨hle, hne⟩ => ?_
  rw [notAfter_iff_le] at hle
  rw [precedes_iff_lt]
  exact lt_of_le_of_ne hle hne

theorem mergeSort_eq_of_perm {items others : List α}
    (h : items.Pairwise fun first second => key first ≠ key second)
    (hperm : others.Perm items) :
    others.mergeSort (fun first second => (key first).notAfter (key second)) =
      items.mergeSort fun first second => (key first).notAfter (key second) := by
  have hothers := hperm.pairwise_iff (fun h => h.symm) |>.mpr h
  refine List.Perm.eq_of_pairwise ?_ (pairwise_precedes_mergeSort key hothers)
    (pairwise_precedes_mergeSort key h)
    ((List.mergeSort_perm _ _).trans (hperm.trans (List.mergeSort_perm _ _).symm))
  intro a b ha hb hab hba
  rw [precedes_iff_lt] at hab hba
  exact absurd hab hba.asymm

end Sorting

end Stylesheets.Text
