import Mathlib.Data.List.Infix
import Mathlib.Data.List.TakeWhile
import Stylesheets.Text.Blank

/-!
# Trimmed text

A text is white space, a trimmed text and white space again, and there is only
one way to divide it so.  A mark without white space that a longer text begins
with lies wholly before the first white space in it.
-/

namespace Stylesheets.Text

/-- No white space at either end; there may be no text at all. -/
structure IsTrimmed (text : Text) : Prop where
  head : ∀ c ∈ text.head?, isBlank c = false
  last : ∀ c ∈ text.getLast?, isBlank c = false

theorem head_trimStart (text : Text) : ∀ c ∈ (trimStart text).head?, isBlank c = false := by
  intro c hc
  have hnot := List.head?_dropWhile_not isBlank text
  rw [show (text.dropWhile isBlank).head? = some c from hc] at hnot
  simpa using hnot

theorem trimStart_append {before text : Text} (hbefore : ∀ c ∈ before, isBlank c = true)
    (hhead : ∀ c ∈ text.head?, isBlank c = false) : trimStart (before ++ text) = text := by
  rw [trimStart, List.dropWhile_append_of_pos hbefore]
  cases text with
  | nil => rfl
  | cons c rest => exact List.dropWhile_cons_of_neg (by simp [hhead c rfl])

theorem trimEnd_append {text after : Text} (hafter : ∀ c ∈ after, isBlank c = true)
    (hlast : ∀ c ∈ text.getLast?, isBlank c = false) : trimEnd (text ++ after) = text := by
  have hreverse := @trimStart_append after.reverse text.reverse (by simpa using hafter)
    (by simpa using hlast)
  rw [trimEnd, dropEndWhile, List.reverse_append, ← trimStart, hreverse, List.reverse_reverse]

theorem exists_eq_append_trimEnd (text : Text) :
    (∀ c ∈ (trimEnd text).getLast?, isBlank c = false) ∧
      ∃ after, (∀ c ∈ after, isBlank c = true) ∧ text = trimEnd text ++ after := by
  refine ⟨by simpa [trimEnd, dropEndWhile, trimStart] using head_trimStart text.reverse,
    (text.reverse.takeWhile isBlank).reverse, ?_, ?_⟩
  · intro c hc
    exact List.mem_takeWhile_imp (List.mem_reverse.mp hc)
  · rw [trimEnd, dropEndWhile, ← List.reverse_append, List.takeWhile_append_dropWhile,
      List.reverse_reverse]

theorem isTrimmed_trim (text : Text) : IsTrimmed text.trim := by
  obtain ⟨hlast, after, -, hafter⟩ := exists_eq_append_trimEnd text.trimStart
  refine ⟨fun c hc => head_trimStart text c ?_, hlast⟩
  rw [hafter, List.head?_append]
  simp only [trim] at hc
  simp [Option.mem_def.mp hc]

theorem exists_eq_append_trim (text : Text) :
    ∃ before after, (∀ c ∈ before, isBlank c = true) ∧ (∀ c ∈ after, isBlank c = true) ∧
      text = before ++ text.trim ++ after := by
  obtain ⟨-, after, hblank, hafter⟩ := exists_eq_append_trimEnd text.trimStart
  refine ⟨text.takeWhile isBlank, after, fun c => List.mem_takeWhile_imp, hblank, ?_⟩
  rw [List.append_assoc, trim, ← hafter, trimStart, List.takeWhile_append_dropWhile]

theorem trim_append {before text after : Text} (hbefore : ∀ c ∈ before, isBlank c = true)
    (h : IsTrimmed text) (hafter : ∀ c ∈ after, isBlank c = true) :
    (before ++ text ++ after).trim = text := by
  cases text with
  | nil =>
      have hblank : ∀ c ∈ before ++ after, isBlank c = true := by
        intro c hc
        rcases List.mem_append.mp hc with hc | hc
        · exact hbefore c hc
        · exact hafter c hc
      have hstart := @trimStart_append (before ++ after) [] hblank (by simp)
      rw [List.append_nil] at hstart
      rw [List.append_nil, trim, hstart]
      rfl
  | cons c rest =>
      rw [trim, List.append_assoc, trimStart_append hbefore (by simpa using h.head c rfl),
        trimEnd_append hafter h.last]

theorem trim_isInfix (text : Text) : text.trim <:+: text := by
  obtain ⟨before, after, -, -, htext⟩ := exists_eq_append_trim text
  exact ⟨before, after, htext.symm⟩

theorem isInfix_trimStart {needle text : Text} (hempty : needle ≠ [])
    (hhead : ∀ c ∈ needle.head?, isBlank c = false) (h : needle <:+: text) :
    needle <:+: trimStart text := by
  obtain ⟨before, after, rfl⟩ := h
  obtain ⟨c, rest, rfl⟩ := List.exists_cons_of_ne_nil hempty
  have hc : isBlank c = false := hhead c rfl
  rw [List.append_assoc, trimStart, List.dropWhile_append]
  split
  · exact ⟨[], after, by simp [hc]⟩
  · exact ⟨_, after, List.append_assoc _ _ _⟩

theorem isInfix_trim {needle text : Text} (hempty : needle ≠ []) (hneedle : IsTrimmed needle)
    (h : needle <:+: text) : needle <:+: text.trim := by
  have hreverse : needle.reverse <:+: text.trimStart.reverse :=
    List.reverse_infix.mpr (isInfix_trimStart hempty hneedle.head h)
  have hends := isInfix_trimStart (by simpa using hempty)
    (fun c hc => hneedle.last c (by simpa using hc)) hreverse
  rwa [← List.reverse_infix, List.reverse_reverse] at hends

theorem isTrimmed_iff_trim_eq {text : Text} : IsTrimmed text ↔ text.trim = text := by
  constructor
  · intro h
    have hsame := @trim_append [] text [] (by simp) h (by simp)
    simpa using hsame
  · intro h
    rw [← h]
    exact isTrimmed_trim text

theorem contains_iff_isInfix (text needle : Text) :
    text.contains needle = true ↔ needle <:+: text := by
  induction text with
  | nil => simp [contains]
  | cons c rest ih => simp [contains, List.infix_cons_iff, ih]

theorem contains_eq_false_iff (text needle : Text) :
    text.contains needle = false ↔ ¬ needle <:+: text := by
  rw [← contains_iff_isInfix, Bool.not_eq_true]

theorem isPrefixOf_append_blank {mark : Text} (hmark : ∀ c ∈ mark, isBlank c = false)
    {text : Text} {c : Char} (hc : isBlank c = true) (rest : Text) :
    mark.isPrefixOf (text ++ c :: rest) = mark.isPrefixOf text := by
  rw [Bool.eq_iff_iff, List.isPrefixOf_iff_prefix, List.isPrefixOf_iff_prefix]
  refine ⟨fun h => ?_, fun h => h.trans (List.prefix_append _ _)⟩
  rcases List.prefix_or_prefix_of_prefix h (List.prefix_append text (c :: rest)) with
    hinside | ⟨more, rfl⟩
  · exact hinside
  · cases more with
    | nil => simp
    | cons d more =>
        obtain ⟨rfl, -⟩ := List.cons_prefix_cons.mp ((List.prefix_append_right_inj text).mp h)
        simp [hmark d (by simp)] at hc

end Stylesheets.Text
