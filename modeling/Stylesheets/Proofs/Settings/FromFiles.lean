import Stylesheets.Proofs.Settings.Building
import Stylesheets.Toml.Document

/-!
# Settings from files

Settings that come from configuration files follow what these files say.  A
fault with a message stands for a file that is missing or malformed and for
roots or variables of the wrong kind; whatever else goes wrong ends the reading
without one.
-/

namespace Stylesheets.Settings

open Fault

variable {reader : Reader} {tree : FileTree} {current path directory : Path}
  {start file : Option Path}

def fromFiles (reader : Reader) (tree : FileTree) (current : Path) (start file : Option Path) :
    Except Fault Settings := do
  build tree current (← load reader tree current start file) []

theorem build_nil (tree : FileTree) (current : Path) (configuration : Table) :
    build tree current configuration [] = buildFrom tree current (configured configuration) := by
  rw [build_eq_buildFrom tree current fun _ hchange _ => absurd hchange List.not_mem_nil]
  exact congrArg _ (funext fun setting =>
    inForce_eq_configured fun _ hvalue => absurd hvalue List.not_mem_nil)

/-- A file that ends the reading without a message; only some of the values in files count. -/
inductive Trips (reader : Reader) (tree : FileTree) (current path : Path)
    (counts : Value → Bool) : Prop
  | tooLong (hfind : tree.find? current path = .error .nameTooLong)
  | notText {bytes : ByteArray} (hcontent : tree.content? current path = .ok bytes)
      (hdecode : Text.decode? bytes = none)
  | noTools {table : Table} (hholds : Holds reader tree current path table)
      (hconfiguration : configurationIn? path table = none)
  | noTable {table : Table} {configuration : Value} (hholds : Holds reader tree current path table)
      (hconfiguration : configurationIn? path table = some configuration)
      (hcounts : counts configuration = true) (hkind : configuration.isTable = false)

theorem trips_iff {counts : Value → Bool} :
    Trips reader tree current path counts ↔
      (∃ cause, tree.isFile current path = .error (.breach cause)) ∨
        tree.isFile current path = .ok true ∧
          ((∃ cause, ReadingFails reader tree current path (.breach cause)) ∨
            ∃ configuration, readFile reader tree current path = .ok configuration ∧
              counts configuration = true ∧ configuration.isTable = false) := by
  constructor
  · rintro (hfind | ⟨hcontent, hdecode⟩ | ⟨hholds, hconfiguration⟩ |
      ⟨hholds, hconfiguration, hcounts, hkind⟩)
    · exact .inl ⟨.system, FileTree.isFile_eq_error_iff.mpr ⟨hfind, rfl⟩⟩
    · exact .inr ⟨FileTree.isFile_of_content hcontent, .inl ⟨_, .notText hcontent hdecode⟩⟩
    · have ⟨bytes, text, hcontent, _⟩ := hholds
      exact .inr ⟨FileTree.isFile_of_content hcontent, .inl ⟨_, .noTools hholds hconfiguration⟩⟩
    · have ⟨bytes, text, hcontent, _⟩ := hholds
      exact .inr ⟨FileTree.isFile_of_content hcontent,
        .inr ⟨_, readFile_eq_ok_iff.mpr ⟨_, hholds, hconfiguration⟩, hcounts, hkind⟩⟩
  · rintro (⟨cause, hcause⟩ | ⟨-, ⟨cause, hfails⟩ | ⟨configuration, hread, hcounts, hkind⟩⟩)
    · exact .tooLong (FileTree.isFile_eq_error_iff.mp hcause).1
    · cases hfails with
      | notText hcontent hdecode => exact .notText hcontent hdecode
      | noTools hholds hconfiguration => exact .noTools hholds hconfiguration
    · obtain ⟨table, hholds, hconfiguration⟩ := readFile_eq_ok_iff.mp hread
      exact .noTable hholds hconfiguration hcounts hkind

theorem exists_breach_foundIn_iff {name : Text} :
    (∃ cause, foundIn reader tree current directory name = .error (.breach cause)) ↔
      Trips reader tree current (directory.child name) Value.isTruthy := by
  simp only [foundIn_eq_error_iff, trips_iff]
  constructor
  · rintro ⟨cause, hcause | ⟨hfile, hfails | ⟨configuration, hread, hcounts, hkind, -⟩⟩⟩
    · exact .inl ⟨cause, hcause⟩
    · exact .inr ⟨hfile, .inl ⟨cause, hfails⟩⟩
    · exact .inr ⟨hfile, .inr ⟨configuration, hread, hcounts, hkind⟩⟩
  · rintro (⟨cause, hcause⟩ | ⟨hfile, ⟨cause, hfails⟩ | ⟨configuration, hread, hcounts, hkind⟩⟩)
    · exact ⟨cause, .inl hcause⟩
    · exact ⟨cause, .inr ⟨hfile, .inl hfails⟩⟩
    · exact ⟨_, .inr ⟨hfile, .inr ⟨configuration, hread, hcounts, hkind, rfl⟩⟩⟩

theorem isFile_of_readFile {configuration : Value}
    (h : readFile reader tree current path = .ok configuration) :
    tree.isFile current path = .ok true := by
  obtain ⟨table, ⟨bytes, text, hcontent, _⟩, -⟩ := readFile_eq_ok_iff.mp h
  exact FileTree.isFile_of_content hcontent

theorem loadFile_of_readFile {configuration : Value}
    (h : readFile reader tree current path = .ok configuration) :
    loadFile reader tree current path = (do
      withRootPath configuration (← tree.realPath current path).val.parent) := by
  simp only [loadFile, isFile_of_readFile h, h]
  rfl

theorem exists_breach_loadFile_iff :
    (∃ cause, loadFile reader tree current path = .error (.breach cause)) ↔
      Trips reader tree current path (fun _ => true) ∨
        ∃ configuration fault, readFile reader tree current path = .ok configuration ∧
          tree.realPath current path = .error fault := by
  constructor
  · rintro ⟨cause, hcause⟩
    rcases bind_eq_error_iff.mp hcause with hfile | ⟨isFile, hfile, hread⟩
    · exact .inl (trips_iff.mpr (.inl ⟨cause, hfile⟩))
    cases isFile with
    | false => cases hread
    | true =>
        rcases bind_eq_error_iff.mp hread with hfails | ⟨configuration, hsays, hroot⟩
        · exact .inl (trips_iff.mpr (.inr ⟨hfile, .inl ⟨cause, readFile_eq_error_iff.mp hfails⟩⟩))
        rcases bind_eq_error_iff.mp hroot with hreal | ⟨real, -, htable⟩
        · exact .inr ⟨configuration, _, hsays, hreal⟩
        · have hkind := (withRootPath_eq_error_iff.mp htable).1
          exact .inl (trips_iff.mpr (.inr ⟨hfile, .inr ⟨configuration, hsays, rfl, hkind⟩⟩))
  · have hlost : ∀ {configuration fault}, readFile reader tree current path = .ok configuration →
        tree.realPath current path = .error fault →
          ∃ cause, loadFile reader tree current path = .error (.breach cause) := by
      intro configuration fault hread hreal
      obtain ⟨cause, rfl⟩ := tree.onlyBreaches_realPath current path fault hreal
      exact ⟨cause, by rw [loadFile_of_readFile hread, hreal]; rfl⟩
    rintro (htrips | ⟨configuration, fault, hread, hreal⟩)
    · rcases trips_iff.mp htrips with
        ⟨cause, hfile⟩ | ⟨hfile, ⟨cause, hfails⟩ | ⟨configuration, hread, -, hkind⟩⟩
      · exact ⟨cause, bind_eq_error_iff.mpr (.inl hfile)⟩
      · refine ⟨cause, bind_eq_error_iff.mpr (.inr ⟨true, hfile, bind_eq_error_iff.mpr ?_⟩)⟩
        exact .inl (readFile_eq_error_iff.mpr hfails)
      · cases hreal : tree.realPath current path with
        | error fault => exact hlost hread hreal
        | ok real =>
            refine ⟨.missingMember, ?_⟩
            rw [loadFile_of_readFile hread, hreal]
            exact withRootPath_eq_error_iff.mpr ⟨hkind, rfl⟩
    · exact hlost hread hreal

/-! ## Settings or a fault -/

/-- What ends the reading of settings without a message. -/
inductive Stumbles (reader : Reader) (tree : FileTree) (current : Path) :
    Option Path → Option Path → Prop
  | named {start : Option Path} {path : Path} (h : Trips reader tree current path fun _ => true) :
      Stumbles reader tree current start (some path)
  | lost {start : Option Path} {path : Path} {configuration : Value} {fault : Fault}
      (hread : readFile reader tree current path = .ok configuration)
      (hreal : tree.realPath current path = .error fault) :
      Stumbles reader tree current start (some path)
  | start {start : Option Path} {fault : Fault}
      (hreal : tree.realPath current (start.getD current) = .error fault) :
      Stumbles reader tree current start none
  | found {start : Option Path} {directory : AbsolutePath} {before after : List Text} {name : Text}
      (hreal : tree.realPath current (start.getD current) = .ok directory)
      (hnames : fileNames = before ++ name :: after)
      (hbefore : ∀ earlier ∈ before, foundIn reader tree current directory.val earlier = .ok none)
      (h : Trips reader tree current (directory.val.child name) Value.isTruthy) :
      Stumbles reader tree current start none
  | built {start file : Option Path} {configuration : Table}
      (hload : load reader tree current start file = .ok configuration)
      (hchecked : Checked (configured configuration))
      (h : Misfits tree current (configured configuration)) :
      Stumbles reader tree current start file

theorem stumbles_of_load {cause : Breach}
    (h : load reader tree current start file = .error (.breach cause)) :
    Stumbles reader tree current start file := by
  cases file with
  | some path =>
      rcases exists_breach_loadFile_iff.mp ⟨cause, h⟩ with htrips | ⟨_, fault, hread, hreal⟩
      · exact .named htrips
      · exact .lost hread hreal
  | none =>
      rcases bind_eq_error_iff.mp h with hreal | ⟨directory, hreal, hfirst⟩
      · exact .start hreal
      · obtain ⟨before, name, after, hnames, hbefore, hfound⟩ := loadFirst_eq_error_iff.mp hfirst
        exact .found hreal hnames hbefore (exists_breach_foundIn_iff.mp ⟨cause, hfound⟩)

theorem exists_breach_fromFiles_iff :
    (∃ cause, fromFiles reader tree current start file = .error (.breach cause)) ↔
      Stumbles reader tree current start file := by
  constructor
  · rintro ⟨cause, hcause⟩
    rcases bind_eq_error_iff.mp hcause with hload | ⟨configuration, hload, hbuild⟩
    · exact stumbles_of_load hload
    · rw [build_nil] at hbuild
      obtain ⟨hchecked, hmisfits⟩ := exists_breach_buildFrom_iff.mp ⟨cause, hbuild⟩
      exact .built hload hchecked hmisfits
  · intro h
    have hloaded : (∃ cause, load reader tree current start file = .error (.breach cause)) →
        ∃ cause, fromFiles reader tree current start file = .error (.breach cause) := by
      rintro ⟨cause, hcause⟩
      exact ⟨cause, bind_eq_error_iff.mpr (.inl hcause)⟩
    cases h with
    | named htrips => exact hloaded (exists_breach_loadFile_iff.mpr (.inl htrips))
    | lost hread hreal => exact hloaded (exists_breach_loadFile_iff.mpr (.inr ⟨_, _, hread, hreal⟩))
    | start hreal =>
        obtain ⟨cause, rfl⟩ := tree.onlyBreaches_realPath current _ _ hreal
        exact hloaded ⟨cause, bind_eq_error_iff.mpr (.inl hreal)⟩
    | found hreal hnames hbefore htrips =>
        obtain ⟨cause, hcause⟩ := exists_breach_foundIn_iff.mpr htrips
        refine hloaded ⟨cause, bind_eq_error_iff.mpr (.inr ⟨_, hreal, ?_⟩)⟩
        exact loadFirst_eq_error_iff.mpr ⟨_, _, _, hnames, hbefore, hcause⟩
    | built hload hchecked hmisfits =>
        obtain ⟨cause, hcause⟩ := exists_breach_buildFrom_iff.mpr ⟨hchecked, hmisfits⟩
        refine ⟨cause, bind_eq_error_iff.mpr (.inr ⟨_, hload, ?_⟩)⟩
        rw [build_nil, hcause]

/-- A fault that settings can end in: one of their own or a breach. -/
def IsOfSettings (fault : Fault) : Prop :=
  (∃ cause, fault = .settings cause) ∨ ∃ cause, fault = .breach cause

theorem ReadingFails.isOfSettings {fault : Fault}
    (h : ReadingFails reader tree current path fault) :
    IsOfSettings fault := by
  cases h with
  | noFile => exact .inl ⟨_, rfl⟩
  | notText => exact .inr ⟨_, rfl⟩
  | malformed => exact .inl ⟨_, rfl⟩
  | noTools => exact .inr ⟨_, rfl⟩

theorem isOfSettings_of_loadFile {fault : Fault}
    (h : loadFile reader tree current path = .error fault) : IsOfSettings fault := by
  rcases bind_eq_error_iff.mp h with hfile | ⟨isFile, -, hread⟩
  · exact .inr ⟨.system, (FileTree.isFile_eq_error_iff.mp hfile).2⟩
  cases isFile with
  | false => exact .inl ⟨_, (Except.error.inj hread).symm⟩
  | true =>
      rcases bind_eq_error_iff.mp hread with hfails | ⟨configuration, -, hroot⟩
      · exact (readFile_eq_error_iff.mp hfails).isOfSettings
      rcases bind_eq_error_iff.mp hroot with hreal | ⟨real, -, htable⟩
      · exact .inr (tree.onlyBreaches_realPath current path fault hreal)
      · exact .inr ⟨_, (withRootPath_eq_error_iff.mp htable).2⟩

theorem isOfSettings_of_load {fault : Fault}
    (h : load reader tree current start file = .error fault) :
    IsOfSettings fault := by
  cases file with
  | some path => exact isOfSettings_of_loadFile h
  | none =>
      rcases bind_eq_error_iff.mp h with hreal | ⟨directory, -, hfirst⟩
      · exact .inr (tree.onlyBreaches_realPath current _ fault hreal)
      obtain ⟨before, name, after, -, -, hfound⟩ := loadFirst_eq_error_iff.mp hfirst
      rcases foundIn_eq_error_iff.mp hfound with hfile | ⟨-, hfails | ⟨_, -, -, -, hfault⟩⟩
      · exact .inr ⟨.system, (FileTree.isFile_eq_error_iff.mp hfile).2⟩
      · exact hfails.isOfSettings
      · exact .inr ⟨_, hfault⟩

theorem isOfSettings_of_buildFrom {given : Setting → Option Value} {fault : Fault}
    (h : buildFrom tree current given = .error fault) : IsOfSettings fault := by
  by_cases hchecked : Checked given
  · exact .inr (onlyBreaches_buildFrom hchecked fault h)
  · obtain ⟨cause, hcause⟩ := @exists_cause_of_not_checked tree current given hchecked
    exact .inl ⟨cause, Except.error.inj (h.symm.trans hcause)⟩

/--
Settings from files hold the elements of what is configured, or they fail with
a fault of their own, unless something stumbles behind the checks.  The checks
are for roots that are no list and for variables that are no table; a text that
stands for another sequence passes and is taken apart.
-/
theorem fromFiles_followsConfiguration (reader : Reader) (tree : FileTree) (current : Path)
    (start file : Option Path) :
    (∀ settings, fromFiles reader tree current start file = .ok settings ↔
        ∃ configuration, load reader tree current start file = .ok configuration ∧
          Follows tree current (configured configuration) settings) ∧
      (∀ fault, fromFiles reader tree current start file = .error fault →
        (∃ cause, fault = .settings cause) ∨
          Stumbles reader tree current start file ∧ ∃ cause, fault = .breach cause) ∧
      (Stumbles reader tree current start file →
        ∃ cause, fromFiles reader tree current start file = .error (.breach cause)) ∧
      ∀ configuration, load reader tree current start file = .ok configuration →
        ¬ Checked (configured configuration) →
          ∃ cause, fromFiles reader tree current start file = .error (.settings cause) := by
  refine ⟨fun settings => ?_, fun fault h => ?_, exists_breach_fromFiles_iff.mpr,
    fun configuration hload hchecked => ?_⟩
  · simp only [fromFiles, bind_eq_ok_iff, build_nil, buildFrom_eq_ok_iff]
  · have hsettings : IsOfSettings fault := by
      rcases bind_eq_error_iff.mp h with hload | ⟨configuration, -, hbuild⟩
      · exact isOfSettings_of_load hload
      · rw [build_nil] at hbuild
        exact isOfSettings_of_buildFrom hbuild
    refine hsettings.imp_right ?_
    rintro ⟨cause, rfl⟩
    exact ⟨exists_breach_fromFiles_iff.mp ⟨cause, h⟩, cause, rfl⟩
  · obtain ⟨cause, hcause⟩ := @exists_cause_of_not_checked tree current _ hchecked
    refine ⟨cause, bind_eq_error_iff.mpr (.inr ⟨configuration, hload, ?_⟩)⟩
    rw [build_nil, hcause]

/-! ## A stray byte and a single extension -/

def extensionText : Text := "extensions = \".scss\"\n".toList

def onlyText? : Table → Option (Text × Text)
  | [(name, .text value)] => some (name, value)
  | _ => none

theorem eq_of_onlyText?_eq_some {table : Table} {name value : Text}
    (h : onlyText? table = some (name, value)) : table = [(name, .text value)] := by
  unfold onlyText? at h
  split at h
  · cases h
    rfl
  · cases h

theorem parse?_extensionText :
    Toml.parse? extensionText.lineFeedsOnly =
      some [(Setting.extensions.name, .text ".scss".toList)] := by
  have hparsed : (Toml.parse? extensionText.lineFeedsOnly).bind onlyText? =
      some (Setting.extensions.name, ".scss".toList) := by
    decide +kernel
  obtain ⟨table, htable, htext⟩ := Option.bind_eq_some_iff.mp hparsed
  rw [htable, eq_of_onlyText?_eq_some htext]

theorem load_extensionText :
    load Toml.parse? (treeOf (Text.encode extensionText)) ⟨.root, []⟩ none none =
      .ok [(Setting.extensions.name, .text ".scss".toList),
        (Setting.rootPath.name, .text ['/'])] := by
  have hdecode : Text.decode? (Text.encode extensionText) = some extensionText := by
    decide +kernel
  have hread : readFile Toml.parse? (treeOf (Text.encode extensionText)) ⟨.root, []⟩
      ⟨.root, ["sassimport.toml".toList]⟩ =
        .ok (.table [(Setting.extensions.name, .text ".scss".toList)]) := by
    simp only [readFile, content?_treeOf, hdecode, parse?_extensionText]
    rfl
  rw [load_treeOf, hread]
  rfl

/-- A byte that stands for no text ends the reading, and a text is taken for its characters. -/
theorem fromFiles_strayByte :
    fromFiles Toml.parse? (treeOf ⟨#[0xff]⟩) ⟨.root, []⟩ none none = .error (.breach .notText) ∧
      (fromFiles Toml.parse? (treeOf (Text.encode extensionText)) ⟨.root, []⟩ none none).map
          Settings.extensions =
        .ok [.text ['.'], .text ['s'], .text ['c'], .text ['s'], .text ['s']] := by
  constructor
  · have hdecode : Text.decode? ⟨#[0xff]⟩ = none := by decide +kernel
    rw [fromFiles, load_treeOf, readFile_of_readingFails (.notText (content?_treeOf _) hdecode)]
    rfl
  · have hreal : rootPathOf (treeOf (Text.encode extensionText)) ⟨.root, []⟩ (.text ['/']) =
        .ok ⟨⟨.root, []⟩, rfl⟩ := by
      cbv
    rw [fromFiles, load_extensionText]
    change (build _ _ _ []).map _ = _
    rw [build_nil]
    have hrootPath : configured [(Setting.extensions.name, .text ".scss".toList),
        (Setting.rootPath.name, .text ['/'])] .rootPath = some (.text ['/']) := rfl
    simp only [buildFrom, ofValues, hrootPath, Option.getD_some, hreal]
    rfl

end Stylesheets.Settings
