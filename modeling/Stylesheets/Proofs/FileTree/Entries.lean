import Mathlib.Data.List.Induction
import Mathlib.Data.List.Nodup
import Stylesheets.FileTree.Basic

/-!
# Entries of a tree

An address has at most one entry, and every address on the way to it is a
directory.  So a tree says the same in whatever order its entries are listed,
and what is below a directory are the ways to the entries there.
-/

namespace Stylesheets

namespace Listing

variable {listing other : Listing}

theorem lookup_eq_some_iff (h : (listing.map Prod.fst).Nodup) (address : Address)
    (entry : Entry) : listing.lookup address = some entry ↔ (address, entry) ∈ listing := by
  induction listing with
  | nil => simp
  | cons item rest ih =>
      obtain ⟨held, old⟩ := item
      rw [List.map_cons, List.nodup_cons] at h
      by_cases hheld : address = held
      · subst hheld
        have hnone : (address, entry) ∉ rest := fun hmem =>
          h.1 (List.mem_map.mpr ⟨(address, entry), hmem, rfl⟩)
        simp [hnone, eq_comm]
      · simp [List.lookup_cons, beq_eq_false_iff_ne.mpr hheld, hheld, ih h.2]

theorem get?_eq_some_iff (h : listing.WellFormed) {address : Address} (hroot : address ≠ [])
    (entry : Entry) : listing.get? address = some entry ↔ (address, entry) ∈ listing := by
  simpa [get?, hroot] using lookup_eq_some_iff h.nodup address entry

theorem isSome_get?_iff (h : listing.WellFormed) {address : Address} (hroot : address ≠ []) :
    (listing.get? address).isSome = true ↔ address ∈ listing.map Prod.fst := by
  simp [Option.isSome_iff_exists, get?_eq_some_iff h hroot]

theorem get?_eq_of_perm (h : listing.WellFormed) (hperm : other.Perm listing)
    (address : Address) : other.get? address = listing.get? address := by
  have hnodup : (other.map Prod.fst).Nodup := (hperm.map _).nodup_iff.mpr h.nodup
  have hlookup : other.lookup address = listing.lookup address := by
    ext entry
    rw [lookup_eq_some_iff hnodup, lookup_eq_some_iff h.nodup, hperm.mem_iff]
  simp [get?, hlookup]

theorem isDirectory_of_isSome (h : listing.WellFormed) {address : Address} {name : Text}
    (hsome : (listing.get? (address ++ [name])).isSome = true) :
    listing.isDirectory address = true := by
  rw [isSome_get?_iff h (by simp)] at hsome
  obtain ⟨item, hitem, haddress⟩ := List.mem_map.mp hsome
  have hrooted := h.rooted item hitem
  rwa [haddress, List.dropLast_concat] at hrooted

theorem isDirectory_of_append (h : listing.WellFormed) (address : Address)
    {below : List Text} (hbelow : below ≠ [])
    (hsome : (listing.get? (address ++ below)).isSome = true) :
    listing.isDirectory address = true := by
  -- From the entry upwards, one name after the other.
  induction below using List.reverseRec with
  | nil => exact absurd rfl hbelow
  | append_singleton below name ih =>
      rw [← List.append_assoc] at hsome
      have hdirectory := isDirectory_of_isSome h hsome
      by_cases hempty : below = []
      · simpa [hempty] using hdirectory
      · exact ih hempty (by simp [isDirectory_iff.mp hdirectory])

theorem isName_of_isSome (h : listing.WellFormed) {address : Address}
    (hsome : (listing.get? address).isSome = true) :
    ∀ name ∈ address, Path.isName name = true := by
  by_cases hroot : address = []
  · simp [hroot]
  · rw [isSome_get?_iff h hroot] at hsome
    obtain ⟨item, hitem, rfl⟩ := List.mem_map.mp hsome
    exact (h.named item hitem).2

end Listing

namespace FileTree

variable (tree : FileTree) (address : Address)

def wayTo? (held : Address) : Option (List Text) :=
  (address.isPrefixOf? held).filter fun way => !way.isEmpty

theorem wayTo?_eq_some_iff (held : Address) (way : List Text) :
    wayTo? address held = some way ↔ held = address ++ way ∧ way ≠ [] := by
  rw [wayTo?, Option.filter_eq_some_iff, List.isPrefixOf?_eq_some_iff_append_eq,
    eq_comm]
  simp

theorem descendants_eq :
    tree.descendants address = (tree.entries.map Prod.fst).filterMap (wayTo? address) := by
  rw [descendants, List.filterMap_map]
  congr 1
  funext item
  simp only [Function.comp_apply, wayTo?]
  cases address.isPrefixOf? item.1 with
  | none => rfl
  | some way => cases way <;> rfl

theorem map_children_eq :
    (tree.children address).map (fun name => [name]) =
      (tree.descendants address).filter fun way => way.length == 1 := by
  rw [children, descendants, List.map_filterMap, List.filter_filterMap]
  congr 1
  funext item
  simp only
  cases address.isPrefixOf? item.1 with
  | none => rfl
  | some way =>
      match way with
      | [] => rfl
      | [name] => rfl
      | name :: second :: rest => simp [Option.filter]

theorem mem_descendants_iff (way : List Text) :
    way ∈ tree.descendants address ↔
      way ≠ [] ∧ (tree.get? (address ++ way)).isSome = true := by
  rw [descendants_eq, List.mem_filterMap]
  constructor
  · rintro ⟨held, hheld, hway⟩
    obtain ⟨rfl, hempty⟩ := (wayTo?_eq_some_iff address held way).mp hway
    exact ⟨hempty, (Listing.isSome_get?_iff tree.wellFormed (by simp [hempty])).mpr hheld⟩
  · rintro ⟨hempty, hsome⟩
    exact ⟨address ++ way, (Listing.isSome_get?_iff tree.wellFormed (by simp [hempty])).mp hsome,
      (wayTo?_eq_some_iff address _ way).mpr ⟨rfl, hempty⟩⟩

theorem nodup_descendants : (tree.descendants address).Nodup := by
  rw [descendants_eq]
  refine List.Nodup.filterMap ?_ tree.wellFormed.nodup
  intro first second way hfirst hsecond
  rw [Option.mem_def, wayTo?_eq_some_iff] at hfirst hsecond
  rw [hfirst.1, hsecond.1]

variable {tree address}

theorem descendants_perm {other : FileTree} (h : other.entries.Perm tree.entries) :
    (other.descendants address).Perm (tree.descendants address) := by
  rw [descendants_eq, descendants_eq]
  exact (h.map _).filterMap _

theorem get?_eq_of_perm {other : FileTree} (h : other.entries.Perm tree.entries) :
    other.get? = tree.get? :=
  funext (Listing.get?_eq_of_perm tree.wellFormed h)

end FileTree

end Stylesheets
