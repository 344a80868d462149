import Stylesheets.Proofs.Settings.Building

/-!
# The arrangement of a configuration

Settings depend on the entries of a configuration and not on their
arrangement: entries with unknown names may stand anywhere, and the others in
any order.  Only the two names of the roots must keep theirs, because the
later one counts and the earlier one does not.
-/

namespace Stylesheets.Settings

open Fault

def IsRootsName (name : Text) : Prop := name = Setting.roots.name ∨ name = rootsAlias

instance (name : Text) : Decidable (IsRootsName name) := inferInstanceAs (Decidable (_ ∨ _))

/-- Neither the other name of the roots nor the name of any setting. -/
def IsUnknown (name : Text) : Prop := name ≠ rootsAlias ∧ ∀ setting : Setting, name ≠ setting.name

theorem configured?_eq_roots_iff {name : Text} :
    configured? name = some .roots ↔ IsRootsName name := by
  constructor
  · intro h
    unfold configured? at h
    split at h
    · next halias => exact .inr halias
    · rw [Setting.ofName?] at h
      have hfound := List.find?_some h
      exact .inl (eq_of_beq hfound).symm
  · rintro (rfl | rfl) <;> rfl

theorem IsUnknown.configured?_eq_none {name : Text} (h : IsUnknown name) :
    configured? name = none := by
  rw [configured?, if_neg h.1, Setting.ofName?, List.find?_eq_none]
  exact fun setting _ hname => h.2 setting (eq_of_beq hname).symm

variable {configuration other : Table} {setting : Setting}

theorem configured_append (first second : Table) (setting : Setting) :
    configured (first ++ second) setting =
      (configured second setting).or (configured first setting) := by
  rw [configured, List.reverse_append, List.find?_append, Option.map_or]
  rfl

theorem exists_of_configured_eq_some {value : Value}
    (h : configured configuration setting = some value) :
    ∃ name, (name, value) ∈ configuration ∧ configured? name = some setting := by
  obtain ⟨⟨name, held⟩, hfound, rfl⟩ := Option.map_eq_some_iff.mp h
  have hname := List.find?_some hfound
  exact ⟨name, List.mem_reverse.mp (List.mem_of_find?_eq_some hfound), of_decide_eq_true hname⟩

theorem configured_eq_none_iff_forall :
    configured configuration setting = none ↔
      ∀ entry ∈ configuration, configured? entry.1 ≠ some setting := by
  simp [configured]

/-- The wider configuration has the same entries and, among them, some with unknown names. -/
inductive Widens : Table → Table → Prop
  | nil : Widens [] []
  | keep (entry : Text × Value) {configuration wider : Table} (h : Widens configuration wider) :
      Widens (entry :: configuration) (entry :: wider)
  | insert {name : Text} (value : Value) (hname : IsUnknown name) {configuration wider : Table}
      (h : Widens configuration wider) : Widens configuration ((name, value) :: wider)

theorem Widens.configured_eq {wider : Table} (h : Widens configuration wider)
    (setting : Setting) : configured wider setting = configured configuration setting := by
  induction h with
  | nil => rfl
  | keep entry _ ih => rw [configured_cons, configured_cons, ih]
  | insert value hname _ ih =>
      rw [configured_cons, hname.configured?_eq_none, ih, if_neg (by simp), Option.or_none]

theorem configured_eq_some_iff (hdistinct : (configuration.map Prod.fst).Nodup)
    (hsetting : setting ≠ .roots) {value : Value} :
    configured configuration setting = some value ↔ (setting.name, value) ∈ configuration := by
  constructor
  · intro h
    obtain ⟨name, hmem, hname⟩ := exists_of_configured_eq_some h
    exact (configured?_eq_some_iff hsetting).mp hname ▸ hmem
  · intro hmem
    cases hheld : configured configuration setting with
    | none =>
        have hnone := configured_eq_none_iff_forall.mp hheld _ hmem
        exact absurd ((configured?_eq_some_iff hsetting).mpr rfl) hnone
    | some held =>
        obtain ⟨name, hother, hname⟩ := exists_of_configured_eq_some hheld
        have hsame := List.inj_on_of_nodup_map hdistinct hother hmem
          ((configured?_eq_some_iff hsetting).mp hname)
        exact congrArg (fun entry => some entry.2) hsame

/-- The entries for the roots, in their order. -/
def rootsEntries (configuration : Table) : Table :=
  configuration.filter fun entry => IsRootsName entry.1

theorem configured_rootsEntries (configuration : Table) :
    configured (rootsEntries configuration) .roots = configured configuration .roots := by
  unfold configured rootsEntries
  rw [← List.filter_reverse, List.find?_filter]
  simp [configured?_eq_roots_iff]

theorem configured_eq_of_perm (hdistinct : (configuration.map Prod.fst).Nodup)
    (hperm : configuration.Perm other) (hroots : rootsEntries configuration = rootsEntries other)
    (setting : Setting) : configured other setting = configured configuration setting := by
  by_cases hsetting : setting = .roots
  · rw [hsetting, ← configured_rootsEntries, ← hroots, configured_rootsEntries]
  · have hother := (hperm.map Prod.fst).nodup_iff.mp hdistinct
    refine Option.ext fun value => ?_
    rw [configured_eq_some_iff hother hsetting, configured_eq_some_iff hdistinct hsetting,
      hperm.mem_iff]

/-! ## Two entries for the roots -/

section Twice

variable {before between after : Table} {name second : Text} {later : Value}

theorem configured_dropEarlier (hname : IsRootsName name) (hsecond : IsRootsName second)
    (value : Value) (setting : Setting) :
    configured (before ++ (name, value) :: between ++ (second, later) :: after) setting =
      configured (before ++ between ++ (second, later) :: after) setting := by
  simp only [configured_append, configured_cons, configured?_eq_roots_iff.mpr hname,
    configured?_eq_roots_iff.mpr hsecond, Option.some.injEq]
  by_cases hsetting : Setting.roots = setting
  · simp [hsetting]
  · simp [hsetting]

theorem configured_roots_eq_later {value : Value}
    (hdistinct : ((before ++ (name, value) :: between ++ (second, later) :: after).map
      Prod.fst).Nodup)
    (hname : IsRootsName name) (hsecond : IsRootsName second) :
    configured (before ++ (name, value) :: between ++ (second, later) :: after) .roots =
      some later := by
  have hafter : configured after .roots = none := by
    rw [configured_eq_none_iff_forall]
    intro entry hentry hroots
    have hthird : IsRootsName entry.1 := configured?_eq_roots_iff.mp hroots
    have hmem : entry.1 ∈ after.map Prod.fst := List.mem_map_of_mem hentry
    simp only [List.map_append, List.map_cons, List.nodup_append, List.nodup_cons,
      List.mem_append, List.mem_cons] at hdistinct
    obtain ⟨-, ⟨hsecondFree, -⟩, happart⟩ := hdistinct
    have hnameSecond : name ≠ second := happart name (.inr (.inl rfl)) second (.inl rfl)
    have hnameThird : name ≠ entry.1 := happart name (.inr (.inl rfl)) entry.1 (.inr hmem)
    have hsecondThird : second ≠ entry.1 := fun hsame => hsecondFree (hsame ▸ hmem)
    -- Three names, and only two of them for the roots.
    unfold IsRootsName at hname hsecond hthird
    grind
  rw [configured_append, configured_cons, hafter, if_pos (configured?_eq_roots_iff.mpr hsecond)]
  rfl

end Twice

theorem build_congr (tree : FileTree) (current : Path) (changes : Table)
    (h : ∀ setting, configured other setting = configured configuration setting) :
    build tree current other changes = build tree current configuration changes := by
  have hinForce : inForce other changes = inForce configuration changes := by
    funext setting
    rw [inForce, inForce, h setting]
  rw [build_eq_ite, build_eq_ite, hinForce]

theorem follows_of_build {tree : FileTree} {current : Path} {changes : Table} {settings : Settings}
    (h : build tree current configuration changes = .ok settings) :
    Follows tree current (inForce configuration changes) settings := by
  rw [build_eq_ite] at h
  split at h
  · exact buildFrom_eq_ok_iff.mp h
  · cases h

/--
What is built from a configuration, settings or a fault, does not change if
entries with unknown names are put in anywhere, nor if its entries are put in
another order that keeps the one of the roots.  Of two entries for the roots the
earlier one might as well be missing or have any value, and unless the roots are
overridden the later one alone says what they are, or is refused if it is no
list.
-/
theorem build_anyArrangement (tree : FileTree) (current : Path) (changes : Table)
    (hdistinct : (configuration.map Prod.fst).Nodup) :
    (∀ wider, Widens configuration wider →
      build tree current wider changes = build tree current configuration changes) ∧
    (∀ other, configuration.Perm other → rootsEntries configuration = rootsEntries other →
      build tree current other changes = build tree current configuration changes) ∧
    ∀ before name value between second later after,
      configuration = before ++ (name, value) :: between ++ (second, later) :: after →
      IsRootsName name → IsRootsName second →
        build tree current configuration changes =
          build tree current (before ++ between ++ (second, later) :: after) changes ∧
        (∀ replaced, build tree current configuration changes =
          build tree current (before ++ (name, replaced) :: between ++ (second, later) :: after)
            changes) ∧
        ((∀ value, (Setting.roots.name, value) ∈ changes → overrides value = false) →
          (∀ settings, build tree current configuration changes = .ok settings →
            ∃ texts : List Text, later = .list (texts.map .text) ∧
              RootsAt tree current settings.rootPath texts settings.roots) ∧
          (later.isList = false → unknownNames (override [] changes) = [] →
            build tree current configuration changes =
              .error (.settings (.rootsNotList later.kindName)))) := by
  refine ⟨fun wider hwider => build_congr tree current changes hwider.configured_eq,
    fun other hperm hroots =>
      build_congr tree current changes (configured_eq_of_perm hdistinct hperm hroots), ?_⟩
  rintro before name value between second later after rfl hname hsecond
  have hdrop := fun value => @configured_dropEarlier before between after name second later
    hname hsecond value
  refine ⟨build_congr tree current changes (hdrop value), fun replaced => ?_, fun hfree => ?_⟩
  · refine build_congr tree current changes fun setting => ?_
    rw [hdrop value, hdrop replaced]
  · have hlater : inForce (before ++ (name, value) :: between ++ (second, later) :: after)
        changes .roots = some later := by
      rw [inForce_eq_configured hfree, configured_roots_eq_later hdistinct hname hsecond]
    refine ⟨fun settings hbuild => ?_, fun hlist hknown => ?_⟩
    · have hroots := (follows_of_build hbuild).roots
      rwa [hlater] at hroots
    · rw [build_eq_ite, if_pos hknown, buildFrom, hlater, Option.getD_some, hlist]
      rfl

def rootPathEntry : Text × Value := ("root_path".toList, .text "/r".toList)

def cssEntry : Text × Value := ("load_paths".toList, .list [.text "css".toList])

def colourEntry : Text × Value := ("colour".toList, .text "blue".toList)

def numberEntry : Text × Value := ("roots".toList, .int 5)

def cssSettings : Settings where
  roots := [.ofText "/r/css".toList]
  rootPath := .ofText "/r".toList
  extensions := defaultExtensions.map .text
  prefixes := defaultPrefixes.map .text
  marker := .text defaultMarker
  excludes := []
  bindings := []
  roots_isAbsolute := by decide +kernel
  rootPath_isAbsolute := by decide +kernel

theorem build_cssEntry :
    build .empty ⟨.root, []⟩ [rootPathEntry, cssEntry] [] = .ok cssSettings := by
  have hreal : FileTree.empty.realPath ⟨.root, []⟩ (.ofText "/r".toList) =
      .ok ⟨.ofText "/r".toList, by decide +kernel⟩ := by
    cbv
  have hroot : FileTree.empty.realPath ⟨.root, []⟩
      ((Path.ofText "/r".toList).append (.ofText "css".toList)) =
      .ok ⟨.ofText "/r/css".toList, by decide +kernel⟩ := by
    cbv
  rw [build_eq_buildFrom _ _ fun _ hchange _ => absurd hchange List.not_mem_nil]
  exact buildFrom_eq_ok_iff.mpr {
    rootPath := ⟨_, .text _, hreal⟩
    roots := ⟨["css".toList], rfl, .listed (by decide) (by
      simp only [List.map_cons, List.map_nil, realRoot]
      exact congrArg (fun real => [real.map Subtype.val]) hroot)⟩
    extensions := .missing
    prefixes := .missing
    marker := rfl
    excludes := .missing
    bindings := rfl }

theorem build_numberBeforeRoots :
    ([numberEntry, rootPathEntry, cssEntry].map Prod.fst).Nodup ∧
      build .empty ⟨.root, []⟩ [numberEntry, colourEntry, rootPathEntry, cssEntry] [] =
        build .empty ⟨.root, []⟩ [numberEntry, rootPathEntry, cssEntry] [] ∧
      build .empty ⟨.root, []⟩ [rootPathEntry, numberEntry, cssEntry] [] =
        build .empty ⟨.root, []⟩ [numberEntry, rootPathEntry, cssEntry] [] ∧
      build .empty ⟨.root, []⟩ [numberEntry, rootPathEntry, cssEntry] [] = .ok cssSettings := by
  have hdistinct : ([numberEntry, rootPathEntry, cssEntry].map Prod.fst).Nodup := by
    decide +kernel
  obtain ⟨hwiden, hpermute, htwice⟩ := build_anyArrangement .empty ⟨.root, []⟩ [] hdistinct
  have hcolour : IsUnknown "colour".toList :=
    ⟨by decide, fun setting => by cases setting <;> decide⟩
  have hroots : rootsEntries [numberEntry, rootPathEntry, cssEntry] =
      rootsEntries [rootPathEntry, numberEntry, cssEntry] := rfl
  obtain ⟨hdrop, -⟩ := htwice [] numberEntry.1 numberEntry.2 [rootPathEntry] cssEntry.1 cssEntry.2
    [] rfl (.inl rfl) (.inr rfl)
  refine ⟨hdistinct, hwiden _ ?_, hpermute _ (.swap _ _ _) hroots, hdrop.trans build_cssEntry⟩
  exact .keep _ (.insert _ hcolour (.keep _ (.keep _ .nil)))

end Stylesheets.Settings
