import Mathlib.Data.List.Basic
import Stylesheets.Value.Basic

/-!
# Entries of tables

Entries that are inserted one after the other leave each key with the value
that it got last.
-/

namespace Stylesheets.Table

def last? (table : Table) (key : Text) : Option Value := table.reverse.lookup key

theorem get?_insert (table : Table) (held : Text) (value : Value) (key : Text) :
    (table.insert held value).get? key = if key = held then some value else table.get? key := by
  unfold get?
  induction table with
  | nil =>
      by_cases h : key = held
      · simp [insert, h]
      · simp [insert, List.lookup_cons, beq_eq_false_iff_ne.mpr h, h]
  | cons entry rest ih =>
      obtain ⟨first, old⟩ := entry
      by_cases hfirst : first = held
      · subst hfirst
        by_cases h : key = first
        · simp [insert, h]
        · simp [insert, List.lookup_cons, beq_eq_false_iff_ne.mpr h, h]
      · by_cases h : key = first
        · subst h
          simp [insert, hfirst]
        · simpa [insert, hfirst, List.lookup_cons, beq_eq_false_iff_ne.mpr h] using ih

theorem insert_of_get?_eq_none {table : Table} {key : Text} (h : table.get? key = none)
    (value : Value) : table.insert key value = table ++ [(key, value)] := by
  induction table with
  | nil => rfl
  | cons entry rest ih =>
      rw [get?, List.lookup_cons] at h
      split at h
      · cases h
      · next hkey =>
          have hne : entry.1 ≠ key := fun hsame => by simp [hsame] at hkey
          rw [insert, if_neg hne, ih h, List.cons_append]

theorem last?_cons (entry : Text × Value) (rest : Table) (key : Text) :
    last? (entry :: rest) key =
      (last? rest key).or (if key = entry.1 then some entry.2 else none) := by
  rw [last?, List.reverse_cons, List.lookup_append, last?, List.lookup_cons, List.lookup_nil]
  by_cases h : key = entry.1
  · simp [h]
  · simp [h, beq_eq_false_iff_ne.mpr h]

theorem get?_foldl_insert (entries table : Table) (key : Text) :
    get? (entries.foldl (fun table entry => table.insert entry.1 entry.2) table) key =
      (last? entries key).or (table.get? key) := by
  induction entries generalizing table with
  | nil => rfl
  | cons entry rest ih =>
      rw [List.foldl_cons, ih, get?_insert, last?_cons, Option.or_assoc]
      by_cases h : key = entry.1
      · simp [h]
      · simp [h]

theorem get?_ofList (entries : Table) (key : Text) :
    (ofList entries).get? key = last? entries key := by
  rw [ofList, get?_foldl_insert]
  exact Option.or_none

theorem mem_insert {table : Table} {held : Text} {value : Value} {entry : Text × Value}
    (h : entry ∈ table.insert held value) : entry = (held, value) ∨ entry ∈ table := by
  induction table with
  | nil => exact .inl (by simpa [insert] using h)
  | cons first rest ih =>
      unfold insert at h
      split at h
      · exact (List.mem_cons.mp h).imp id (List.mem_cons_of_mem _)
      · rcases List.mem_cons.mp h with rfl | hrest
        · exact .inr List.mem_cons_self
        · exact (ih hrest).imp id (List.mem_cons_of_mem _)

theorem mem_foldl_insert {entries table : Table} {entry : Text × Value}
    (h : entry ∈ entries.foldl (fun table entry => table.insert entry.1 entry.2) table) :
    entry ∈ entries ∨ entry ∈ table := by
  induction entries generalizing table with
  | nil => exact .inr h
  | cons first rest ih =>
      rcases ih h with hrest | hinsert
      · exact .inl (List.mem_cons_of_mem _ hrest)
      · rcases mem_insert hinsert with rfl | htable
        · exact .inl List.mem_cons_self
        · exact .inr htable

theorem filter_insert (keeps : Text → Bool) (table : Table) (key : Text) (value : Value) :
    (table.insert key value).filter (fun entry => keeps entry.1) =
      if keeps key then Table.insert (table.filter fun entry => keeps entry.1) key value
      else table.filter fun entry => keeps entry.1 := by
  induction table with
  | nil => cases hkey : keeps key <;> simp [insert, hkey]
  | cons entry rest ih =>
      by_cases hsame : entry.1 = key
      · subst hsame
        cases hkey : keeps entry.1 <;> simp [insert, hkey]
      · rw [insert, if_neg hsame, List.filter_cons, ih, List.filter_cons]
        cases hkey : keeps key <;> cases hentry : keeps entry.1 <;> simp [insert, hsame]

theorem filter_foldl_insert (keeps : Text → Bool) (entries table : Table) :
    (entries.foldl (fun table entry => table.insert entry.1 entry.2) table).filter
        (fun entry => keeps entry.1) =
      (entries.filter fun entry => keeps entry.1).foldl
        (fun (table : Table) entry => table.insert entry.1 entry.2)
        (table.filter fun entry => keeps entry.1) := by
  induction entries generalizing table with
  | nil => rfl
  | cons entry rest ih =>
      rw [List.foldl_cons, ih, filter_insert, List.filter_cons]
      cases hentry : keeps entry.1 <;> simp

end Stylesheets.Table
