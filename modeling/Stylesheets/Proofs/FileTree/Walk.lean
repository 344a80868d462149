import Stylesheets.FileTree.Query
import Stylesheets.Proofs.FileTree.Entries
import Stylesheets.Proofs.Path.Written

/-!
# Walks

A walk along a longer path is a walk along its beginning, followed by a walk
from where that one ended with the links that are left.  Below a directory that
holds no link on the way, a walk stays on the address that the names spell.
-/

namespace Stylesheets.FileTree

variable {tree : FileTree}

/-- What the walk along some segments comes to decides how every longer walk goes on. -/
def GoesOn (tree : FileTree) (links : Nat) (address : Address) (segments : List Text) :
    Except Obstacle Address → Prop
  | .ok reached => ∃ left, ∀ followLast rest, rest ≠ [] →
      tree.walk followLast links address (segments ++ rest) =
        tree.walk followLast left reached rest
  | .error obstacle => ∀ followLast rest, rest ≠ [] →
      tree.walk followLast links address (segments ++ rest) = .error obstacle

theorem GoesOn.of_eq {links left : Nat} {address inside : Address} {segments others : List Text}
    {result : Except Obstacle Address} (h : GoesOn tree left inside others result)
    (hsame : ∀ followLast rest, rest ≠ [] →
      tree.walk followLast links address (segments ++ rest) =
        tree.walk followLast left inside (others ++ rest)) :
    GoesOn tree links address segments result := by
  cases result with
  | ok reached =>
      obtain ⟨left, hleft⟩ := h
      refine ⟨left, fun followLast rest hrest => ?_⟩
      rw [hsame followLast rest hrest, hleft followLast rest hrest]
  | error obstacle =>
      intro followLast rest hrest
      rw [hsame followLast rest hrest, h followLast rest hrest]

theorem walk_goesOn (links : Nat) (address : Address) (segments : List Text) :
    GoesOn tree links address segments (tree.walk true links address segments) := by
  -- A link puts its target before the rest, so the induction is on the calls of the walk.
  fun_induction FileTree.walk tree true links address segments with
  | case1 links address => exact ⟨links, fun _ _ _ => rfl⟩
  | case2 links address segment rest hfile =>
      intro followLast more hmore
      simp [walk, hfile]
  | case3 links address segment rest hdirectory hstep ih =>
      refine ih.of_eq fun followLast more hmore => ?_
      simp [walk, hdirectory, hstep]
  | case4 links address rest hdirectory hstep ih =>
      refine ih.of_eq fun followLast more hmore => ?_
      simp [walk, hdirectory, hstep]
  | case5 links address segment rest hdirectory hstep hdots hlong =>
      intro followLast more hmore
      simp [walk, hdirectory, hstep, hdots, hlong]
  | case6 links address segment rest hdirectory hstep hdots hshort hentry =>
      intro followLast more hmore
      simp [walk, hdirectory, hstep, hdots, hshort, hentry]
  | case7 links address segment rest hdirectory hstep hdots hshort target hentry hlast =>
      simp at hlast
  | case8 address segment rest hdirectory hstep hdots hshort target hentry hlast =>
      intro followLast more hmore
      simp [walk, hdirectory, hstep, hdots, hshort, hentry, hmore]
  | case9 address segment rest hdirectory hstep hdots hshort target hentry hlast left ih =>
      refine ih.of_eq fun followLast more hmore => ?_
      simp [walk, hdirectory, hstep, hdots, hshort, hentry, hmore]
  | case10 links address segment rest hdirectory hstep hdots hshort entry hlink hentry ih =>
      refine ih.of_eq fun followLast more hmore => ?_
      cases entry with
      | link target => exact absurd rfl (hlink target)
      | file content => simp [walk, hdirectory, hstep, hdots, hshort, hentry]
      | directory => simp [walk, hdirectory, hstep, hdots, hshort, hentry]

/-! ## Names below a directory -/

variable {followLast : Bool} {links : Nat} {address reached : Address}
  {name : Text} {names rest : List Text}

theorem isDirectory_of_walk
    (h : tree.walk followLast links address (name :: rest) = .ok reached) :
    tree.isDirectory address = true := by
  rw [walk] at h
  cases hdirectory : tree.isDirectory address with
  | true => rfl
  | false => simp [hdirectory] at h

theorem isDirectory_dropLast (h : tree.isDirectory address = true) :
    tree.isDirectory address.dropLast = true := by
  cases address using List.reverseRec with
  | nil => exact h
  | append_singleton before last _ =>
      rw [List.dropLast_concat]
      exact Listing.isDirectory_of_isSome tree.wellFormed
        (Option.isSome_of_eq_some (Listing.isDirectory_iff.mp h))

theorem isDirectory_of_walk_doubleDot {segments : List Text}
    (hlast : segments.getLast? = some Path.doubleDot)
    (h : tree.walk true links address segments = .ok reached) :
    tree.isDirectory reached = true := by
  obtain ⟨before, rfl⟩ := List.getLast?_eq_some_iff.mp hlast
  have hgoes := @walk_goesOn tree links address before
  cases hbefore : tree.walk true links address before with
  | error obstacle =>
      rw [hbefore] at hgoes
      rw [hgoes true [Path.doubleDot] (List.cons_ne_nil _ _)] at h
      cases h
  | ok middle =>
      rw [hbefore] at hgoes
      obtain ⟨left, hleft⟩ := hgoes
      rw [hleft true [Path.doubleDot] (List.cons_ne_nil _ _)] at h
      have hmiddle := isDirectory_of_walk h
      have hup : tree.walk true left middle [Path.doubleDot] = .ok middle.dropLast := by
        simp [walk, hmiddle, Path.isStep, Path.doubleDot, Path.dot]
      rw [← Except.ok.inj (hup.symm.trans h)]
      exact isDirectory_dropLast hmiddle

theorem fits_of_walk (hname : Path.isName name = true)
    (h : tree.walk followLast links address (name :: rest) = .ok reached) :
    ¬ maxNameBytes < Text.byteLength name ∧
      (tree.get? (address ++ [name])).isSome = true := by
  have hdirectory := isDirectory_of_walk h
  simp only [Path.isName, Bool.and_eq_true, bne_iff_ne] at hname
  rw [walk] at h
  by_cases hlong : maxNameBytes < Text.byteLength name
  · simp [hdirectory, hname.1.1, hname.1.2, hlong] at h
  · refine ⟨hlong, ?_⟩
    cases hentry : tree.get? (address ++ [name]) with
    | none => simp [hdirectory, hname.1.1, hname.1.2, hlong, hentry] at h
    | some entry => rfl

theorem walk_cons_directory (hname : Path.isName name = true)
    (hshort : ¬ maxNameBytes < Text.byteLength name)
    (hinside : tree.isDirectory (address ++ [name]) = true) :
    tree.walk followLast links address (name :: rest) =
      tree.walk followLast links (address ++ [name]) rest := by
  have hentry : tree.get? (address ++ [name]) = some .directory :=
    Listing.isDirectory_iff.mp hinside
  have hdirectory : tree.isDirectory address = true :=
    Listing.isDirectory_of_isSome tree.wellFormed (Option.isSome_of_eq_some hentry)
  simp only [Path.isName, Bool.and_eq_true, bne_iff_ne] at hname
  rw [walk]
  simp [hdirectory, hname.1.1, hname.1.2, hshort, hentry]

theorem walk_singleton (hname : Path.isName name = true)
    (hshort : ¬ maxNameBytes < Text.byteLength name)
    (hsome : (tree.get? (address ++ [name])).isSome = true) :
    tree.walk false links address [name] = .ok (address ++ [name]) := by
  have hdirectory : tree.isDirectory address = true :=
    Listing.isDirectory_of_isSome tree.wellFormed hsome
  obtain ⟨entry, hentry⟩ := Option.isSome_iff_exists.mp hsome
  simp only [Path.isName, Bool.and_eq_true, bne_iff_ne] at hname
  rw [walk]
  cases entry <;> simp [hdirectory, hname.1.1, hname.1.2, hshort, hentry, walk]

def PassesDirectories (tree : FileTree) (links : Nat) (address : Address)
    (names : List Text) : Prop :=
  ∀ between, between <+: names → between ≠ [] → between ≠ names →
    ∃ inside, tree.walk false links address between = .ok inside ∧
      tree.isDirectory inside = true

theorem isSome_get?_of_passesDirectories (hempty : names ≠ [])
    (hnames : ∀ name ∈ names, Path.isName name = true)
    (hwalk : tree.walk true links address names = .ok reached)
    (hpasses : tree.PassesDirectories links address names) :
    (tree.get? (address ++ names)).isSome = true := by
  induction names generalizing address with
  | nil => exact absurd rfl hempty
  | cons name rest ih =>
      have hname := hnames name (by simp)
      obtain ⟨hshort, hsome⟩ := fits_of_walk hname hwalk
      by_cases hlast : rest = []
      · simpa [hlast] using hsome
      · obtain ⟨inside, hreached, hinside⟩ :=
          hpasses [name] (by simp) (by simp) (by simpa using Ne.symm hlast)
        rw [walk_singleton hname hshort hsome] at hreached
        obtain rfl := Except.ok.inj hreached
        rw [walk_cons_directory hname hshort hinside] at hwalk
        have hrest := ih hlast (fun other hother => hnames other (by simp [hother])) hwalk
          (fun between hbegins _ hproper => by
            have hbetween := hpasses (name :: between) (by simpa using hbegins) (by simp)
              (by simpa using hproper)
            rwa [walk_cons_directory hname hshort hinside] at hbetween)
        simpa using hrest

theorem passesDirectories_of_isSome_get?
    (hwalk : tree.walk true links address names = .ok reached)
    (hsome : (tree.get? (address ++ names)).isSome = true) :
    tree.PassesDirectories links address names := by
  induction names generalizing address with
  | nil =>
      intro between hbegins hempty
      exact absurd (List.prefix_nil.mp hbegins) hempty
  | cons name rest ih =>
      have hname : Path.isName name = true :=
        Listing.isName_of_isSome tree.wellFormed hsome name (by simp)
      obtain ⟨hshort, hfirst⟩ := fits_of_walk hname hwalk
      intro between hbegins hempty hproper
      obtain ⟨after, rfl, hafter⟩ : ∃ after, between = name :: after ∧ after <+: rest := by
        cases between with
        | nil => exact absurd rfl hempty
        | cons other after =>
            rw [List.cons_prefix_cons] at hbegins
            exact ⟨after, by rw [hbegins.1], hbegins.2⟩
      have hrest : rest ≠ [] := by
        rintro rfl
        exact hproper (by rw [List.prefix_nil.mp hafter])
      have hsplit : address ++ name :: rest = (address ++ [name]) ++ rest := by simp
      rw [hsplit] at hsome
      have hinside := Listing.isDirectory_of_append tree.wellFormed _ hrest hsome
      rw [walk_cons_directory hname hshort hinside] at hwalk ⊢
      by_cases hend : after = []
      · subst hend
        exact ⟨_, by rw [walk], hinside⟩
      · exact ih hwalk hsome after hafter hend (by simpa using hproper)

/-! ## Paths below a directory -/

variable {current base : Path}

theorem locate_eq_ok_iff {path : Path} :
    tree.locate followLast current path = .ok reached ↔
      '\x00' ∉ path.text ∧ ¬ maxPathBytes < Text.byteLength path.text ∧
        tree.walk followLast maxLinks (if path.isAbsolute then [] else current.segments)
          path.segments = .ok reached := by
  unfold locate
  by_cases hnull : '\x00' ∈ path.text
  · simp [hnull]
  · by_cases hlong : maxPathBytes < Text.byteLength path.text
    · simp [hnull, hlong]
    · simp [hnull, hlong]

theorem fits_descend (habsolute : base.isAbsolute = true)
    (h : tree.locate true current (base.descend names) = .ok reached)
    {between : List Text} (hbegins : between <+: names) :
    '\x00' ∉ (base.descend between).text ∧
      ¬ maxPathBytes < Text.byteLength (base.descend between).text := by
  obtain ⟨hnull, hshort, -⟩ := locate_eq_ok_iff.mp h
  obtain ⟨more, hmore⟩ := Path.text_prefix_descend habsolute hbegins
  rw [← hmore] at hnull hshort
  rw [Text.byteLength_append] at hshort
  exact ⟨fun hmem => hnull (List.mem_append_left _ hmem), by omega⟩

theorem locate_descend (habsolute : base.isAbsolute = true) (hempty : names ≠ [])
    (h : tree.locate true current (base.descend names) = .ok reached) :
    ∃ address left, tree.locate true current base = .ok address ∧
      tree.walk true left address names = .ok reached ∧
      ∀ between, between <+: names → between ≠ [] →
        tree.locate false current (base.descend between) =
          tree.walk false left address between := by
  obtain ⟨-, -, hwalk⟩ := locate_eq_ok_iff.mp h
  have hstart : ∀ between : List Text,
      (if (base.descend between).isAbsolute then [] else current.segments) = [] :=
    fun _ => if_pos habsolute
  rw [hstart] at hwalk
  have hgoes : GoesOn tree maxLinks [] base.segments _ := walk_goesOn maxLinks [] base.segments
  cases hbase : tree.walk true maxLinks [] base.segments with
  | error obstacle =>
      rw [hbase] at hgoes
      rw [Path.descend, hgoes true names hempty] at hwalk
      cases hwalk
  | ok address =>
      rw [hbase] at hgoes
      obtain ⟨left, hleft⟩ := hgoes
      refine ⟨address, left, ?_, ?_, fun between hbegins hbetween => ?_⟩
      · have hwhole := fits_descend habsolute h List.nil_prefix
        rw [locate_eq_ok_iff, if_pos habsolute]
        exact ⟨by simpa [Path.descend] using hwhole.1, by simpa [Path.descend] using hwhole.2,
          hbase⟩
      · rwa [Path.descend, hleft true names hempty] at hwalk
      · obtain ⟨hnull, hshort⟩ := fits_descend habsolute h hbegins
        rw [locate, if_neg (by simpa using hnull), if_neg hshort, hstart, Path.descend,
          hleft false between hbetween]

def IsRealDirectory (tree : FileTree) (current path : Path) : Prop :=
  ∃ address, tree.locate false current path = .ok address ∧ tree.isDirectory address = true

/-- An entry is listed below a base exactly when the way to it passes real directories only. -/
theorem isSome_get?_iff_isRealDirectory (habsolute : base.isAbsolute = true)
    (hempty : names ≠ []) (hnames : ∀ name ∈ names, Path.isName name = true)
    (h : tree.locate true current (base.descend names) = .ok reached) :
    (∃ address, tree.locate true current base = .ok address ∧
        tree.isDirectory address = true ∧ (tree.get? (address ++ names)).isSome = true) ↔
      ∀ between, between <+: names → between ≠ [] → between ≠ names →
        tree.IsRealDirectory current (base.descend between) := by
  obtain ⟨address, left, hbase, hwalk, hbelow⟩ := locate_descend habsolute hempty h
  have hdirectory : tree.isDirectory address = true := by
    cases names with
    | nil => exact absurd rfl hempty
    | cons name rest => exact isDirectory_of_walk hwalk
  have hpasses : tree.PassesDirectories left address names ↔
      ∀ between, between <+: names → between ≠ [] → between ≠ names →
        tree.IsRealDirectory current (base.descend between) := by
    refine forall₄_congr fun between hbegins hbetween _ => ?_
    rw [IsRealDirectory, hbelow between hbegins hbetween]
  rw [← hpasses]
  constructor
  · rintro ⟨other, hother, -, hsome⟩
    obtain rfl := Except.ok.inj (hbase.symm.trans hother)
    exact passesDirectories_of_isSome_get? hwalk hsome
  · intro hthrough
    exact ⟨address, hbase, hdirectory,
      isSome_get?_of_passesDirectories hempty hnames hwalk hthrough⟩

variable {other : FileTree}

theorem isDirectory_congr (h : other.get? = tree.get?) : other.isDirectory = tree.isDirectory := by
  funext address
  exact congrArg (Option.any Entry.isDirectory) (congrFun h address)

theorem walk_congr (h : other.get? = tree.get?) (followLast : Bool) (links : Nat)
    (address : Address) (segments : List Text) :
    other.walk followLast links address segments =
      tree.walk followLast links address segments := by
  have hdirectories := isDirectory_congr h
  fun_induction FileTree.walk tree followLast links address segments with
  | case1 => rw [walk]
  | case2 links address segment rest hfile => simp [walk, hdirectories, hfile]
  | case3 links address segment rest hdirectory hstep ih =>
      simp [walk, hdirectories, hdirectory, hstep, ih]
  | case4 links address rest hdirectory hstep ih =>
      simp [walk, hdirectories, hdirectory, hstep, ih]
  | case5 links address segment rest hdirectory hstep hdots hlong =>
      simp [walk, hdirectories, hdirectory, hstep, hdots, hlong]
  | case6 links address segment rest hdirectory hstep hdots hshort hentry =>
      simp [walk, hdirectories, hdirectory, hstep, hdots, hshort, h, hentry]
  | case7 links address segment rest hdirectory hstep hdots hshort target hentry hlast =>
      simp [walk, hdirectories, hdirectory, hstep, hdots, hshort, h, hentry, hlast]
  | case8 address segment rest hdirectory hstep hdots hshort target hentry hlast =>
      simp [walk, hdirectories, hdirectory, hstep, hdots, hshort, h, hentry, hlast]
  | case9 address segment rest hdirectory hstep hdots hshort target hentry hlast left ih =>
      simpa [walk, hdirectories, hdirectory, hstep, hdots, hshort, h, hentry, hlast] using ih
  | case10 links address segment rest hdirectory hstep hdots hshort entry hlink hentry ih =>
      cases entry with
      | link target => exact absurd rfl (hlink target)
      | file content => simp [walk, hdirectories, hdirectory, hstep, hdots, hshort, h, hentry, ih]
      | directory => simp [walk, hdirectories, hdirectory, hstep, hdots, hshort, h, hentry, ih]

theorem locate_congr (h : other.get? = tree.get?) : other.locate = tree.locate := by
  funext followLast current path
  simp only [locate, walk_congr h]

theorem find?_congr (h : other.get? = tree.get?) : other.find? = tree.find? := by
  funext current path
  simp only [find?, locate_congr h, h]

end Stylesheets.FileTree
