import Mathlib
import Stylesheets.Settings.Load

/-!
# What configuration files say

A file says what its bytes stand for, as text and as a table.  Of several files
the first one decides that says anything or that cannot be read; the files
after it play no part.
-/

namespace Stylesheets.Settings

variable {reader : Reader} {tree : FileTree} {current file directory : Path}
  {fault : Fault}

/-- The table that the bytes of a file stand for. -/
def Holds (reader : Reader) (tree : FileTree) (current file : Path) (table : Table) : Prop :=
  ∃ bytes text, tree.content? current file = .ok bytes ∧ Text.decode? bytes = some text ∧
    reader text.lineFeedsOnly = some table

/-- The configuration in the table of a file, unless a value stands where its table should. -/
def configurationIn? (file : Path) (table : Table) : Option Value :=
  if file.name = projectFileName then
    match (table.get? projectTableName).getD (.table []) with
    | .table tools => some ((Table.get? tools ownTableName).getD (.table []))
    | _ => none
  else some (.table table)

inductive ReadingFails (reader : Reader) (tree : FileTree) (current file : Path) : Fault → Prop
  | noFile {obstacle : Obstacle} (hcontent : tree.content? current file = .error obstacle) :
      ReadingFails reader tree current file (.settings (.fileUnreadable file))
  | notText {bytes : ByteArray} (hcontent : tree.content? current file = .ok bytes)
      (hdecode : Text.decode? bytes = none) :
      ReadingFails reader tree current file (.breach .notText)
  | malformed {bytes : ByteArray} {text : Text} (hcontent : tree.content? current file = .ok bytes)
      (hdecode : Text.decode? bytes = some text) (hparse : reader text.lineFeedsOnly = none) :
      ReadingFails reader tree current file (.settings (.fileUnreadable file))
  | noTools {table : Table} (hholds : Holds reader tree current file table)
      (hconfiguration : configurationIn? file table = none) :
      ReadingFails reader tree current file (.breach .missingMember)

theorem readFile_of_holds {table : Table} (h : Holds reader tree current file table) :
    readFile reader tree current file =
      match configurationIn? file table with
      | some configuration => .ok configuration
      | none => .error (.breach .missingMember) := by
  obtain ⟨bytes, text, hcontent, hdecode, hparse⟩ := h
  simp only [readFile, hcontent, hdecode, hparse, configurationIn?]
  split
  · cases htools : (table.get? projectTableName).getD (.table []) <;>
      simp only [entryOf, htools, bind, Except.bind]
  · rfl

theorem readFile_cases (reader : Reader) (tree : FileTree) (current file : Path) :
    (∃ table, Holds reader tree current file table) ∨
      ∃ fault, readFile reader tree current file = .error fault ∧
        ReadingFails reader tree current file fault := by
  cases hcontent : tree.content? current file with
  | error obstacle => exact .inr ⟨_, by simp only [readFile, hcontent], .noFile hcontent⟩
  | ok bytes =>
      cases hdecode : Text.decode? bytes with
      | none =>
          exact .inr ⟨_, by simp only [readFile, hcontent, hdecode], .notText hcontent hdecode⟩
      | some text =>
          cases hparse : reader text.lineFeedsOnly with
          | none =>
              exact .inr ⟨_, by simp only [readFile, hcontent, hdecode, hparse],
                .malformed hcontent hdecode hparse⟩
          | some table => exact .inl ⟨table, bytes, text, hcontent, hdecode, hparse⟩

theorem readFile_of_readingFails (h : ReadingFails reader tree current file fault) :
    readFile reader tree current file = .error fault := by
  cases h with
  | noFile hcontent => simp only [readFile, hcontent]
  | notText hcontent hdecode => simp only [readFile, hcontent, hdecode]
  | malformed hcontent hdecode hparse => simp only [readFile, hcontent, hdecode, hparse]
  | noTools hholds hconfiguration => rw [readFile_of_holds hholds, hconfiguration]

theorem readFile_eq_error_iff :
    readFile reader tree current file = .error fault ↔
      ReadingFails reader tree current file fault := by
  refine ⟨fun h => ?_, readFile_of_readingFails⟩
  rcases readFile_cases reader tree current file with ⟨table, hholds⟩ | ⟨found, hfound, hfails⟩
  · rw [readFile_of_holds hholds] at h
    split at h
    · cases h
    · next hnone =>
        obtain rfl := Except.error.inj h
        exact .noTools hholds hnone
  · obtain rfl := Except.error.inj (hfound.symm.trans h)
    exact hfails

theorem readFile_eq_ok_iff {configuration : Value} :
    readFile reader tree current file = .ok configuration ↔
      ∃ table, Holds reader tree current file table ∧
        configurationIn? file table = some configuration := by
  constructor
  · intro h
    rcases readFile_cases reader tree current file with ⟨table, hholds⟩ | ⟨fault, hfault, -⟩
    · refine ⟨table, hholds, ?_⟩
      rw [readFile_of_holds hholds] at h
      split at h
      · next hsome => rw [hsome, Except.ok.inj h]
      · cases h
    · cases hfault.symm.trans h
  · rintro ⟨table, hholds, hsome⟩
    rw [readFile_of_holds hholds, hsome]

theorem withRootPath_eq_error_iff {configuration : Value} {rootPath : Path} :
    withRootPath configuration rootPath = .error fault ↔
      configuration.isTable = false ∧ fault = .breach .missingMember := by
  cases configuration <;> simp [withRootPath, Value.isTable, eq_comm]

/-! ## The first of several files -/

/-- The configuration of a file; none if there is no such file or it says nothing. -/
def foundIn (reader : Reader) (tree : FileTree) (current directory : Path) (name : Text) :
    Except Fault (Option Table) := do
  if !(← tree.isFile current (directory.child name)) then return none
  else
    let configuration ← readFile reader tree current (directory.child name)
    if configuration.isTruthy then return some (← withRootPath configuration directory)
    else return none

theorem loadFirst_cons (tree : FileTree) (current directory : Path) (name : Text)
    (rest : List Text) :
    loadFirst reader tree current directory (name :: rest) = (do
      match ← foundIn reader tree current directory name with
      | some configuration => return configuration
      | none => loadFirst reader tree current directory rest) := by
  rw [loadFirst, foundIn]
  cases tree.isFile current (directory.child name) with
  | error fault => rfl
  | ok isFile =>
      cases isFile with
      | false => rfl
      | true =>
          cases readFile reader tree current (directory.child name) with
          | error fault => rfl
          | ok configuration =>
              simp only [bind, Except.bind, Bool.not_true, Bool.false_eq_true, if_false]
              split
              · cases withRootPath configuration directory <;> rfl
              · rfl

/-- What the first file gives that is not passed over. -/
def DecidedBy (reader : Reader) (tree : FileTree) (current directory : Path) (names : List Text)
    (found : Except Fault (Option Table)) : Prop :=
  ∃ before name after, names = before ++ name :: after ∧
    (∀ earlier ∈ before, foundIn reader tree current directory earlier = .ok none) ∧
    foundIn reader tree current directory name = found

theorem decidedBy_cons_iff {name : Text} {rest : List Text}
    {found : Except Fault (Option Table)} :
    DecidedBy reader tree current directory (name :: rest) found ↔
      foundIn reader tree current directory name = found ∨
        foundIn reader tree current directory name = .ok none ∧
          DecidedBy reader tree current directory rest found := by
  constructor
  · rintro ⟨before, decider, after, hnames, hbefore, hdecides⟩
    rcases List.cons_eq_append_iff.mp hnames with ⟨rfl, hcons⟩ | ⟨others, rfl, hrest⟩
    · obtain ⟨rfl, rfl⟩ := List.cons.inj hcons
      exact .inl hdecides
    · obtain ⟨hfirst, hothers⟩ := List.forall_mem_cons.mp hbefore
      exact .inr ⟨hfirst, others, decider, after, hrest, hothers, hdecides⟩
  · rintro (hdecides | ⟨hfirst, before, decider, after, rfl, hbefore, hdecides⟩)
    · exact ⟨[], name, rest, rfl, List.forall_mem_nil _, hdecides⟩
    · exact ⟨name :: before, decider, after, rfl,
        List.forall_mem_cons.mpr ⟨hfirst, hbefore⟩, hdecides⟩

theorem loadFirst_eq_error_iff {names : List Text} :
    loadFirst reader tree current directory names = .error fault ↔
      DecidedBy reader tree current directory names (.error fault) := by
  induction names with
  | nil =>
      constructor
      · intro h
        cases h
      · rintro ⟨before, name, after, hnames, -⟩
        simp at hnames
  | cons name rest ih =>
      rw [loadFirst_cons, decidedBy_cons_iff, ← ih]
      cases hfirst : foundIn reader tree current directory name with
      | error first => simp [bind, Except.bind]
      | ok found => cases found <;> simp [bind, Except.bind, pure, Except.pure]

theorem foundIn_eq_error_iff {name : Text} :
    foundIn reader tree current directory name = .error fault ↔
      tree.isFile current (directory.child name) = .error fault ∨
        tree.isFile current (directory.child name) = .ok true ∧
          (ReadingFails reader tree current (directory.child name) fault ∨
            ∃ configuration,
              readFile reader tree current (directory.child name) = .ok configuration ∧
                configuration.isTruthy = true ∧ configuration.isTable = false ∧
                fault = .breach .missingMember) := by
  rw [foundIn, Fault.bind_eq_error_iff]
  refine or_congr_right ⟨?_, ?_⟩
  · rintro ⟨isFile, hisFile, h⟩
    cases isFile with
    | false => cases h
    | true =>
        refine ⟨hisFile, (Fault.bind_eq_error_iff.mp h).imp readFile_eq_error_iff.mp ?_⟩
        rintro ⟨configuration, hread, hsays⟩
        split at hsays
        · next htruthy =>
            rcases Fault.bind_eq_error_iff.mp hsays with hroot | ⟨table, -, hpure⟩
            · exact ⟨configuration, hread, htruthy, withRootPath_eq_error_iff.mp hroot⟩
            · cases hpure
        · cases hsays
  · rintro ⟨hisFile, hfails⟩
    refine ⟨true, hisFile, Fault.bind_eq_error_iff.mpr (hfails.imp readFile_eq_error_iff.mpr ?_)⟩
    rintro ⟨configuration, hread, htruthy, htable⟩
    refine ⟨configuration, hread, ?_⟩
    rw [if_pos htruthy, Fault.bind_eq_error_iff]
    exact .inl (withRootPath_eq_error_iff.mpr htable)

def treeOf (bytes : ByteArray) : FileTree :=
  FileTree.empty.put ⟨.root, []⟩ (.ofText "/sassimport.toml".toList) (.file bytes)

theorem load_treeOf (bytes : ByteArray) :
    load reader (treeOf bytes) ⟨.root, []⟩ none none = (do
      let configuration ←
        readFile reader (treeOf bytes) ⟨.root, []⟩ ⟨.root, ["sassimport.toml".toList]⟩
      if configuration.isTruthy then withRootPath configuration ⟨.root, []⟩ else return []) := by
  have hreal : (treeOf bytes).realPath ⟨.root, []⟩ ⟨.root, []⟩ = .ok ⟨⟨.root, []⟩, rfl⟩ := by
    cbv
  have hhidden : (treeOf bytes).isFile ⟨.root, []⟩ ⟨.root, [".sassimport.toml".toList]⟩ =
      .ok false := by
    cbv
  have hheld : (treeOf bytes).isFile ⟨.root, []⟩ ⟨.root, ["sassimport.toml".toList]⟩ =
      .ok true := by
    cbv
  have hproject : (treeOf bytes).isFile ⟨.root, []⟩ ⟨.root, [projectFileName]⟩ = .ok false := by
    cbv
  simp only [load, Option.getD_none, hreal]
  change loadFirst reader (treeOf bytes) ⟨.root, []⟩ ⟨.root, []⟩ fileNames = _
  simp only [fileNames, loadFirst, Path.child, List.nil_append, hhidden, hheld, hproject]
  rfl

theorem content?_treeOf (bytes : ByteArray) :
    (treeOf bytes).content? ⟨.root, []⟩ ⟨.root, ["sassimport.toml".toList]⟩ = .ok bytes := by
  cbv

end Stylesheets.Settings
