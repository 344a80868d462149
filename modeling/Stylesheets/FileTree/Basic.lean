import Stylesheets.Path.Basic

/-!
# Trees of files

A file tree is a table from addresses to entries.  An address is the list of
names on the way from the root to an entry; the root itself needs no entry.
Links are entries like others and are not followed here.  Every entry lies in
a directory, so a change that would leave an entry without one is refused.
-/

namespace Stylesheets

abbrev Address := List Text

inductive Entry where
  | file (content : ByteArray)
  | directory
  | link (target : Text)

def Entry.isDirectory : Entry → Bool
  | directory => true
  | _ => false

theorem Entry.isDirectory_iff {entry : Entry} :
    entry.isDirectory = true ↔ entry = .directory := by
  cases entry <;> simp [isDirectory]

abbrev Listing := List (Address × Entry)

namespace Listing

def get? (listing : Listing) (address : Address) : Option Entry :=
  if address.isEmpty then some .directory else listing.lookup address

def isDirectory (listing : Listing) (address : Address) : Bool :=
  (listing.get? address).any Entry.isDirectory

/-- Every entry lies in a directory, and no address has two entries. -/
structure WellFormed (listing : Listing) : Prop where
  nodup : (listing.map Prod.fst).Nodup
  named : ∀ item ∈ listing, item.1 ≠ [] ∧ ∀ name ∈ item.1, Path.isName name = true
  rooted : ∀ item ∈ listing, listing.isDirectory item.1.dropLast = true

def admits (listing : Listing) (address : Address) (entry : Entry) : Bool :=
  (address.getLast?.any Path.isName) && listing.isDirectory address.dropLast &&
    (entry.isDirectory || !listing.isDirectory address)

def set (address : Address) (entry : Entry) : Listing → Listing
  | [] => [(address, entry)]
  | (held, old) :: rest =>
    if held = address then (address, entry) :: rest
    else (held, old) :: set address entry rest

def unset (listing : Listing) (address : Address) : Listing :=
  listing.filter fun item => item.1 != address

/-! ## What changes keep -/

variable {listing : Listing} {address : Address} {entry : Entry}

theorem isDirectory_iff :
    listing.isDirectory address = true ↔ listing.get? address = some .directory := by
  simp [isDirectory, Option.any_eq_true, Entry.isDirectory_iff]

theorem lookup_set (other : Address) :
    (set address entry listing).lookup other =
      if other = address then some entry else listing.lookup other := by
  induction listing with
  | nil =>
      by_cases h : other = address
      · simp [set, h]
      · simp [set, List.lookup_cons, beq_eq_false_iff_ne.mpr h, h]
  | cons item rest ih =>
      obtain ⟨held, old⟩ := item
      by_cases hheld : held = address
      · subst hheld
        by_cases h : other = held
        · simp [set, h]
        · simp [set, List.lookup_cons, beq_eq_false_iff_ne.mpr h, h]
      · by_cases h : other = held
        · subst h
          simp [set, hheld]
        · simpa [set, hheld, List.lookup_cons, beq_eq_false_iff_ne.mpr h] using ih

theorem get?_set (haddress : address ≠ []) (other : Address) :
    get? (set address entry listing) other =
      if other = address then some entry else listing.get? other := by
  unfold get?
  by_cases hroot : other = []
  · simp [hroot, haddress.symm]
  · simp [hroot, lookup_set]

theorem mem_set {item : Address × Entry} (h : item ∈ set address entry listing) :
    item = (address, entry) ∨ item ∈ listing := by
  induction listing with
  | nil => exact .inl (by simpa [set] using h)
  | cons first rest ih =>
      unfold set at h
      split at h <;> grind

theorem map_fst_set :
    (set address entry listing).map Prod.fst =
      if address ∈ listing.map Prod.fst then listing.map Prod.fst
      else listing.map Prod.fst ++ [address] := by
  induction listing with
  | nil => rfl
  | cons first rest ih => grind [set]

theorem names_of_isDirectory (wellFormed : listing.WellFormed)
    (h : listing.isDirectory address = true) :
    ∀ name ∈ address, Path.isName name = true := by
  rw [isDirectory_iff] at h
  by_cases hroot : address = []
  · simp [hroot]
  · simp only [get?, List.isEmpty_iff, hroot, if_false] at h
    obtain ⟨before, after, rfl, -⟩ := List.lookup_eq_some_iff.mp h
    exact (wellFormed.named (address, .directory) (by simp)).2

theorem WellFormed.set (wellFormed : listing.WellFormed)
    (h : listing.admits address entry = true) :
    (Listing.set address entry listing).WellFormed := by
  simp only [admits, Bool.and_eq_true, Bool.or_eq_true, Entry.isDirectory_iff,
    Bool.not_eq_true', Option.any_eq_true] at h
  obtain ⟨⟨⟨name, hlast, hname⟩, hparent⟩, hkept⟩ := h
  obtain ⟨parent, rfl⟩ := List.getLast?_eq_some_iff.mp hlast
  rw [List.dropLast_concat] at hparent
  have haddress : parent ++ [name] ≠ [] := by simp
  have hdirectory : ∀ other, listing.isDirectory other = true →
      (Listing.set (parent ++ [name]) entry listing).isDirectory other = true := by
    intro other hother
    rw [isDirectory_iff, get?_set haddress]
    by_cases hsame : other = parent ++ [name]
    · subst hsame
      simpa [hother] using hkept
    · simpa [hsame] using isDirectory_iff.mp hother
  refine ⟨?_, ?_, ?_⟩
  · rw [map_fst_set]
    split
    · exact wellFormed.nodup
    · next hnew => grind [wellFormed.nodup, List.nodup_append]
  · intro item hitem
    rcases mem_set hitem with rfl | hold
    · refine ⟨haddress, fun part hpart => ?_⟩
      rcases List.mem_append.mp hpart with hpart | hpart
      · exact names_of_isDirectory wellFormed hparent part hpart
      · rw [List.mem_singleton.mp hpart]
        exact hname
    · exact wellFormed.named item hold
  · intro item hitem
    rcases mem_set hitem with rfl | hold
    · rw [List.dropLast_concat]
      exact hdirectory _ hparent
    · exact hdirectory _ (wellFormed.rooted item hold)

theorem lookup_unset {other : Address} (h : other ≠ address) :
    (listing.unset address).lookup other = listing.lookup other := by
  induction listing with
  | nil => rfl
  | cons item rest ih =>
      obtain ⟨held, old⟩ := item
      unfold unset at ih ⊢
      by_cases hheld : held = address
      · have hne : (other == held) = false := by simpa [hheld] using h
        simpa [hheld, List.lookup_cons, hheld ▸ hne] using ih
      · simp only [bne_iff_ne, ne_eq, hheld, not_false_eq_true,
          List.filter_cons_of_pos, List.lookup_cons, ih]

theorem WellFormed.unset (wellFormed : listing.WellFormed)
    (h : listing.isDirectory address = false) : (listing.unset address).WellFormed := by
  have hsub : (listing.unset address).Sublist listing := List.filter_sublist
  refine ⟨wellFormed.nodup.sublist (hsub.map _),
    fun item hitem => wellFormed.named item (hsub.subset hitem), ?_⟩
  intro item hitem
  have hparent := wellFormed.rooted item (hsub.subset hitem)
  have hne : item.1.dropLast ≠ address := by
    intro hsame
    rw [hsame, h] at hparent
    cases hparent
  simpa [isDirectory, get?, lookup_unset hne] using hparent

end Listing

structure FileTree where
  entries : Listing
  wellFormed : entries.WellFormed

namespace FileTree

def get? (tree : FileTree) (address : Address) : Option Entry := tree.entries.get? address

def isDirectory (tree : FileTree) (address : Address) : Bool := tree.entries.isDirectory address

def children (tree : FileTree) (address : Address) : List Text :=
  tree.entries.filterMap fun (held, _) =>
    match address.isPrefixOf? held with
    | some [name] => some name
    | _ => none

/-- The ways from a directory to everything below it that no link leads to. -/
def descendants (tree : FileTree) (address : Address) : List (List Text) :=
  tree.entries.filterMap fun (held, _) =>
    match address.isPrefixOf? held with
    | some [] => none
    | way => way

def empty : FileTree := ⟨[], by constructor <;> simp⟩

def insert (tree : FileTree) (address : Address) (entry : Entry) : FileTree :=
  if h : tree.entries.admits address entry then
    ⟨.set address entry tree.entries, tree.wellFormed.set h⟩
  else tree

def erase (tree : FileTree) (address : Address) : FileTree :=
  if h : tree.entries.isDirectory address = false then
    ⟨tree.entries.unset address, tree.wellFormed.unset h⟩
  else tree

end FileTree

end Stylesheets
