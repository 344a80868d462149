import Stylesheets.Proofs.Value.Table
import Stylesheets.Settings.Build
import Stylesheets.Settings.Load

/-!
# Which value of a setting counts

A change that overrides counts before the configuration, and of several values
that one of them has for a setting the last one counts.  Settings are built
from these values alone, whatever the configuration and the changes look like
otherwise.
-/

namespace Stylesheets

theorem Setting.name_injective : Function.Injective Setting.name := by
  intro first second h
  cases first <;> cases second <;> first | rfl | (exact absurd h (by decide))

namespace Settings

/-- The value of a setting in a configuration, under the last of its names there. -/
def configured (configuration : Table) (setting : Setting) : Option Value :=
  (configuration.reverse.find? fun entry => configured? entry.1 = some setting).map Prod.snd

/-- The value that changes give to a setting; those that override nothing do not count. -/
def changed? (changes : Table) (setting : Setting) : Option Value :=
  Table.last? (changes.filter fun change => overrides change.2) setting.name

def inForce (configuration changes : Table) (setting : Setting) : Option Value :=
  (changed? changes setting).or (configured configuration setting)

theorem configured_cons (entry : Text × Value) (rest : Table) (setting : Setting) :
    configured (entry :: rest) setting =
      (configured rest setting).or
        (if configured? entry.1 = some setting then some entry.2 else none) := by
  rw [configured, List.reverse_cons, List.find?_append, configured]
  by_cases h : configured? entry.1 = some setting
  · cases hrest : rest.reverse.find? fun entry => configured? entry.1 = some setting <;> simp [h]
  · cases hrest : rest.reverse.find? fun entry => configured? entry.1 = some setting <;> simp [h]

theorem last?_ownNames (configuration : Table) (setting : Setting) :
    Table.last? (configuration.filterMap fun (name, value) =>
        (configured? name).map fun setting => (setting.name, value)) setting.name =
      configured configuration setting := by
  induction configuration with
  | nil => rfl
  | cons entry rest ih =>
      rw [configured_cons, ← ih]
      cases hname : configured? entry.1 with
      | none => rw [List.filterMap_cons_none (by simp [hname])]; simp
      | some named =>
          rw [List.filterMap_cons_some (by simp [hname]; rfl), Table.last?_cons]
          simp [Setting.name_injective.eq_iff, eq_comm]

theorem get?_choose (configuration changes : Table) (setting : Setting) :
    (choose configuration changes).get? setting.name = inForce configuration changes setting := by
  rw [choose, override, Table.get?_foldl_insert, ownNames, Table.get?_ofList, last?_ownNames]
  rfl

theorem changed?_cons (change : Text × Value) (rest : Table) (setting : Setting) :
    changed? (change :: rest) setting =
      (changed? rest setting).or
        (if overrides change.2 = true ∧ setting.name = change.1 then some change.2 else none) := by
  unfold changed?
  by_cases h : overrides change.2 = true
  · simp [List.filter_cons_of_pos, h, Table.last?_cons]
  · simp [List.filter_cons_of_neg, h]

theorem inForce_eq_configured {configuration changes : Table} {setting : Setting}
    (h : ∀ value, (setting.name, value) ∈ changes → overrides value = false) :
    inForce configuration changes setting = configured configuration setting := by
  have hnone : changed? changes setting = none := by
    induction changes with
    | nil => rfl
    | cons change rest ih =>
        rw [changed?_cons, ih fun value hvalue => h value (List.mem_cons_of_mem _ hvalue),
          Option.none_or, if_neg]
        rintro ⟨hoverrides, hname⟩
        have hkept := h change.2 (hname ▸ List.mem_cons_self)
        exact Bool.false_ne_true (hkept.symm.trans hoverrides)
  rw [inForce, hnone, Option.none_or]

theorem configured?_eq_some_iff {name : Text} {setting : Setting} (h : setting ≠ .roots) :
    configured? name = some setting ↔ name = setting.name := by
  constructor
  · intro hname
    unfold configured? at hname
    split at hname
    · exact absurd (Option.some.inj hname).symm h
    · rw [Setting.ofName?] at hname
      have hfound := List.find?_some hname
      exact (eq_of_beq hfound).symm
  · rintro rfl
    cases setting with
    | roots => exact absurd rfl h
    | _ => rfl

def IsNamed (name : Text) : Prop := (Setting.ofName? name).isSome = true

theorem isNamed_name (setting : Setting) : IsNamed setting.name := by
  cases setting <;> rfl

theorem isNamed_of_mem_ownNames {configuration : Table} {entry : Text × Value}
    (h : entry ∈ ownNames configuration) : IsNamed entry.1 := by
  rcases Table.mem_foldl_insert h with hown | hnone
  · obtain ⟨given, -, hgiven⟩ := List.mem_filterMap.mp hown
    obtain ⟨setting, -, rfl⟩ := Option.map_eq_some_iff.mp hgiven
    exact isNamed_name setting
  · cases hnone

theorem isNamed_of_mem_choose {configuration changes : Table}
    (hchanges : ∀ change ∈ changes, overrides change.2 = true → IsNamed change.1)
    {entry : Text × Value} (h : entry ∈ choose configuration changes) : IsNamed entry.1 := by
  rcases Table.mem_foldl_insert h with hchange | hown
  · have hmem := List.mem_filter.mp hchange
    exact hchanges entry hmem.1 hmem.2
  · exact isNamed_of_mem_ownNames hown

theorem unknownNames_eq (table : Table) :
    unknownNames table =
      ((table.filter fun entry => (Setting.ofName? entry.1).isNone).map Prod.fst).mergeSort
        Text.notAfter := by
  rw [unknownNames, List.filter_map]
  rfl

theorem unknownNames_choose (configuration changes : Table) :
    unknownNames (choose configuration changes) = unknownNames (override [] changes) := by
  have hown : (ownNames configuration).filter (fun entry => (Setting.ofName? entry.1).isNone) =
      [] := by
    rw [List.filter_eq_nil_iff]
    intro entry hentry
    have hnamed : (Setting.ofName? entry.1).isSome = true := isNamed_of_mem_ownNames hentry
    simp [Option.isNone_eq_false_iff.mpr hnamed]
  rw [unknownNames_eq, unknownNames_eq, choose, override, override,
    Table.filter_foldl_insert fun name => (Setting.ofName? name).isNone,
    Table.filter_foldl_insert fun name => (Setting.ofName? name).isNone, hown]
  rfl

theorem all_isSome_ofName? (table : Table) :
    (table.all fun entry => (Setting.ofName? entry.1).isSome) = (unknownNames table).isEmpty := by
  rw [Bool.eq_iff_iff, unknownNames_eq, List.isEmpty_iff, ← List.length_eq_zero_iff,
    List.length_mergeSort, List.length_eq_zero_iff, List.map_eq_nil_iff, List.filter_eq_nil_iff,
    List.all_eq_true]
  simp [Option.isSome_iff_ne_none]

/-! ## Building -/

/-- Settings from the value that each setting has, if it has one. -/
def buildFrom (tree : FileTree) (current : Path) (given : Setting → Option Value) :
    Except Fault Settings := do
  let roots := (given .roots).getD (.list [])
  if !roots.isList then .error (.settings (.rootsNotList roots.kindName))
  else if !((given .bindings).getD (.table [])).isTable then .error (.settings .variablesNotTable)
  else
    let _ ← (← itemsOf roots).mapM textOf
    ofValues tree current given

/-- Settings are built from the values in force, unless a change has an unknown name. -/
theorem build_eq_ite (tree : FileTree) (current : Path) (configuration changes : Table) :
    build tree current configuration changes =
      if unknownNames (override [] changes) = [] then
        buildFrom tree current (inForce configuration changes)
      else .error (.settings (.unknownNames (unknownNames (override [] changes)))) := by
  simp only [build, buildFrom, objection?, checkRoots, ofTable, all_isSome_ofName?, get?_choose,
    unknownNames_choose]
  by_cases hnone : unknownNames (override [] changes) = []
  · simp only [hnone, List.isEmpty_nil, Bool.not_true, Bool.false_eq_true, if_false, if_true]
    split_ifs <;> simp only [bind_assoc, pure_bind]
  · have hsome : (unknownNames (override [] changes)).isEmpty = false :=
      List.isEmpty_eq_false_iff.mpr hnone
    simp only [hsome, hnone, Bool.not_false, if_true, if_false]

theorem build_eq_buildFrom (tree : FileTree) (current : Path) {configuration changes : Table}
    (hchanges : ∀ change ∈ changes, overrides change.2 = true → IsNamed change.1) :
    build tree current configuration changes =
      buildFrom tree current (inForce configuration changes) := by
  have hknown : unknownNames (choose configuration changes) = [] := by
    rw [← List.isEmpty_iff, ← all_isSome_ofName?, List.all_eq_true]
    exact fun entry hentry => isNamed_of_mem_choose hchanges hentry
  rw [build_eq_ite, ← unknownNames_choose configuration, if_pos hknown]

end Settings

end Stylesheets
