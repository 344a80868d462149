import Stylesheets.Proofs.FileTree.Resolution
import Stylesheets.Proofs.Settings.FromFiles
import Stylesheets.Proofs.Value.Table

/-!
# The first file that says anything

A directory is searched for configuration files until one of them says
something or cannot be read.  This file alone decides: its configuration is
loaded, or the search fails on it, whatever the files after it hold.
-/

namespace Stylesheets

namespace FileTree

variable {tree other : FileTree} {current path : Path}

theorem isFile_eq_ok_true_iff :
    tree.isFile current path = .ok true ↔ ∃ bytes, tree.content? current path = .ok bytes := by
  refine ⟨fun h => ?_, fun ⟨bytes, h⟩ => isFile_of_content h⟩
  unfold isFile leadsTo at h
  unfold content?
  split at h
  · next entry hfind =>
      cases entry with
      | file bytes => exact ⟨bytes, by rw [hfind]⟩
      | directory => cases h
      | link target => cases h
  · cases h
  · cases h

theorem isFile_congr (h : other.find? current path = tree.find? current path) :
    other.isFile current path = tree.isFile current path := by
  rw [isFile, isFile, leadsTo, leadsTo, h]

theorem content?_congr (h : other.find? current path = tree.find? current path) :
    other.content? current path = tree.content? current path := by
  rw [content?, content?, h]

end FileTree

namespace Settings

variable {reader : Reader} {tree other : FileTree} {current file directory : Path}
  {names : List Text} {entries configuration : Table} {fault : Fault}

/-- The configuration in a file is a table. -/
def Extracts (reader : Reader) (tree : FileTree) (current file : Path) (entries : Table) : Prop :=
  ∃ table, Holds reader tree current file table ∧
    configurationIn? file table = some (.table entries)

/-- A file is missing, or its configuration is empty. -/
inductive SaysNothing (reader : Reader) (tree : FileTree) (current file : Path) : Prop
  | missing (hfile : tree.isFile current file = .ok false)
  | empty (h : Extracts reader tree current file [])

inductive CannotBeRead (reader : Reader) (tree : FileTree) (current file : Path) : Fault → Prop
  | nameTooLong (hfind : tree.find? current file = .error .nameTooLong) :
      CannotBeRead reader tree current file (.breach .system)
  | notText {bytes : ByteArray} (hcontent : tree.content? current file = .ok bytes)
      (hdecode : Text.decode? bytes = none) :
      CannotBeRead reader tree current file (.breach .notText)
  | malformed {bytes : ByteArray} {text : Text} (hcontent : tree.content? current file = .ok bytes)
      (hdecode : Text.decode? bytes = some text) (hparse : reader text.lineFeedsOnly = none) :
      CannotBeRead reader tree current file (.settings (.fileUnreadable file))

/-- Where a configuration should be, the files of a directory have tables. -/
def HoldTables (reader : Reader) (tree : FileTree) (current directory : Path)
    (names : List Text) : Prop :=
  ∀ name ∈ names, ∀ table, Holds reader tree current (directory.child name) table →
    ∃ entries, configurationIn? (directory.child name) table = some (.table entries)

/-- The directory is the root path of a configuration that has none. -/
inductive WithRootPath (directory : Path) (entries : Table) : Table → Prop
  | kept {value : Value} (h : entries.get? Setting.rootPath.name = some value) :
      WithRootPath directory entries entries
  | added (h : entries.get? Setting.rootPath.name = none) :
      WithRootPath directory entries
        (entries ++ [(Setting.rootPath.name, .text directory.text)])

theorem withRootPath_table_eq_ok_iff :
    withRootPath (.table entries) directory = .ok configuration ↔
      WithRootPath directory entries configuration := by
  rw [withRootPath, Except.ok.injEq, Table.insertIfNew, Table.contains]
  cases hget : entries.get? Setting.rootPath.name with
  | some value =>
      refine ⟨?_, ?_⟩
      · rintro rfl
        exact .kept hget
      · rintro (_ | hnone)
        · rfl
        · cases hget.symm.trans hnone
  | none =>
      rw [Option.isSome_none, if_neg Bool.false_ne_true, Table.insert_of_get?_eq_none hget]
      refine ⟨?_, ?_⟩
      · rintro rfl
        exact .added hget
      · rintro (hsome | _)
        · cases hget.symm.trans hsome
        · rfl

theorem Extracts.readFile (h : Extracts reader tree current file entries) :
    readFile reader tree current file = .ok (.table entries) :=
  readFile_eq_ok_iff.mpr h

theorem Extracts.isFile (h : Extracts reader tree current file entries) :
    tree.isFile current file = .ok true := by
  obtain ⟨table, ⟨bytes, text, hcontent, -⟩, -⟩ := h
  exact FileTree.isFile_of_content hcontent

theorem CannotBeRead.readingFails (h : CannotBeRead reader tree current file fault) :
    tree.isFile current file = .error fault ∨
      tree.isFile current file = .ok true ∧ ReadingFails reader tree current file fault := by
  cases h with
  | nameTooLong hfind => exact .inl (FileTree.isFile_eq_error_iff.mpr ⟨hfind, rfl⟩)
  | notText hcontent hdecode =>
      exact .inr ⟨FileTree.isFile_of_content hcontent, .notText hcontent hdecode⟩
  | malformed hcontent hdecode hparse =>
      exact .inr ⟨FileTree.isFile_of_content hcontent, .malformed hcontent hdecode hparse⟩

/-! ## What is found in a file -/

variable {name : Text}

theorem foundIn_of_saysNothing (h : SaysNothing reader tree current (directory.child name)) :
    foundIn reader tree current directory name = .ok none := by
  cases h with
  | missing hfile =>
      rw [foundIn, hfile]
      rfl
  | empty hempty =>
      rw [foundIn, hempty.isFile, hempty.readFile]
      rfl

theorem foundIn_of_extracts (h : Extracts reader tree current (directory.child name) entries)
    (hsome : entries ≠ []) :
    foundIn reader tree current directory name =
      (withRootPath (.table entries) directory).map some := by
  have htruthy : (Value.table entries).isTruthy = true := by
    simpa [Value.isTruthy] using hsome
  rw [foundIn, h.isFile, h.readFile]
  simp only [bind, Except.bind, Bool.not_true, Bool.false_eq_true, if_false, htruthy, if_true]
  cases withRootPath (.table entries) directory <;> rfl

theorem foundIn_of_cannotBeRead
    (h : CannotBeRead reader tree current (directory.child name) fault) :
    foundIn reader tree current directory name = .error fault :=
  foundIn_eq_error_iff.mpr (h.readingFails.imp_right (And.imp_right .inl))

theorem foundIn_cases
    (htables : ∀ table, Holds reader tree current (directory.child name) table →
      ∃ entries, configurationIn? (directory.child name) table = some (.table entries)) :
    SaysNothing reader tree current (directory.child name) ∨
      (∃ entries, entries ≠ [] ∧ Extracts reader tree current (directory.child name) entries) ∨
      ∃ fault, CannotBeRead reader tree current (directory.child name) fault := by
  cases hfile : tree.isFile current (directory.child name) with
  | error fault => exact .inr (.inr ⟨_, .nameTooLong (FileTree.isFile_eq_error_iff.mp hfile).1⟩)
  | ok isFile =>
      cases isFile with
      | false => exact .inl (.missing hfile)
      | true =>
          obtain ⟨bytes, hcontent⟩ := FileTree.isFile_eq_ok_true_iff.mp hfile
          rcases readFile_cases reader tree current (directory.child name) with
            ⟨table, hholds⟩ | ⟨fault, -, hfails⟩
          · obtain ⟨entries, hentries⟩ := htables table hholds
            by_cases hnone : entries = []
            · exact .inl (.empty ⟨table, hholds, hnone ▸ hentries⟩)
            · exact .inr (.inl ⟨entries, hnone, table, hholds, hentries⟩)
          · refine .inr (.inr ?_)
            cases hfails with
            | noFile hnone => cases hcontent.symm.trans hnone
            | notText hcontent hdecode => exact ⟨_, .notText hcontent hdecode⟩
            | malformed hcontent hdecode hparse => exact ⟨_, .malformed hcontent hdecode hparse⟩
            | noTools hholds hnone =>
                obtain ⟨entries, hentries⟩ := htables _ hholds
                cases hnone.symm.trans hentries

theorem foundIn_of_withRootPath (h : Extracts reader tree current (directory.child name) entries)
    (hsome : entries ≠ []) (hrootPath : WithRootPath directory entries configuration) :
    foundIn reader tree current directory name = .ok (some configuration) := by
  rw [foundIn_of_extracts h hsome, withRootPath_table_eq_ok_iff.mpr hrootPath]
  rfl

theorem exists_withRootPath (directory : Path) (entries : Table) :
    ∃ configuration, WithRootPath directory entries configuration := by
  cases hget : entries.get? Setting.rootPath.name with
  | some value => exact ⟨_, .kept hget⟩
  | none => exact ⟨_, .added hget⟩

theorem foundIn_ne_none (h : (∃ entries, entries ≠ [] ∧
      Extracts reader tree current (directory.child name) entries) ∨
    ∃ fault, CannotBeRead reader tree current (directory.child name) fault) :
    foundIn reader tree current directory name ≠ .ok none := by
  rcases h with ⟨entries, hsome, hextracts⟩ | ⟨fault, hfault⟩
  · obtain ⟨configuration, hrootPath⟩ := exists_withRootPath directory entries
    rw [foundIn_of_withRootPath hextracts hsome hrootPath]
    simp
  · rw [foundIn_of_cannotBeRead hfault]
    simp

section Tables

variable (htables : ∀ table, Holds reader tree current (directory.child name) table →
  ∃ entries, configurationIn? (directory.child name) table = some (.table entries))

include htables

theorem foundIn_eq_none_iff :
    foundIn reader tree current directory name = .ok none ↔
      SaysNothing reader tree current (directory.child name) := by
  refine ⟨fun h => ?_, foundIn_of_saysNothing⟩
  exact (foundIn_cases htables).resolve_right fun hdecides => foundIn_ne_none hdecides h

theorem foundIn_eq_some_iff :
    foundIn reader tree current directory name = .ok (some configuration) ↔
      ∃ entries, entries ≠ [] ∧ Extracts reader tree current (directory.child name) entries ∧
        WithRootPath directory entries configuration := by
  constructor
  · intro h
    rcases foundIn_cases htables with hnothing | ⟨entries, hsome, hextracts⟩ | ⟨fault, hfault⟩
    · cases h.symm.trans (foundIn_of_saysNothing hnothing)
    · obtain ⟨other, hrootPath⟩ := exists_withRootPath directory entries
      rw [foundIn_of_withRootPath hextracts hsome hrootPath] at h
      obtain rfl := Option.some.inj (Except.ok.inj h)
      exact ⟨entries, hsome, hextracts, hrootPath⟩
    · cases h.symm.trans (foundIn_of_cannotBeRead hfault)
  · rintro ⟨entries, hsome, hextracts, hrootPath⟩
    exact foundIn_of_withRootPath hextracts hsome hrootPath

theorem foundIn_eq_fault_iff :
    foundIn reader tree current directory name = .error fault ↔
      CannotBeRead reader tree current (directory.child name) fault := by
  refine ⟨fun h => ?_, foundIn_of_cannotBeRead⟩
  rcases foundIn_cases htables with hnothing | ⟨entries, hsome, hextracts⟩ | ⟨other, hfault⟩
  · cases h.symm.trans (foundIn_of_saysNothing hnothing)
  · obtain ⟨configuration, hrootPath⟩ := exists_withRootPath directory entries
    cases h.symm.trans (foundIn_of_withRootPath hextracts hsome hrootPath)
  · obtain rfl := Except.error.inj (h.symm.trans (foundIn_of_cannotBeRead hfault))
    exact hfault

end Tables

/-! ## What is loaded -/

theorem loadFirst_eq_ok_iff :
    loadFirst reader tree current directory names = .ok configuration ↔
      DecidedBy reader tree current directory names (.ok (some configuration)) ∨
        (∀ name ∈ names, foundIn reader tree current directory name = .ok none) ∧
          configuration = [] := by
  induction names with
  | nil =>
      have hnone : ¬ DecidedBy reader tree current directory [] (.ok (some configuration)) := by
        rintro ⟨before, name, after, hnames, -⟩
        simp at hnames
      simp [loadFirst, hnone, eq_comm]
  | cons name rest ih =>
      rw [loadFirst_cons, decidedBy_cons_iff, List.forall_mem_cons]
      cases hfirst : foundIn reader tree current directory name with
      | error fault => simp [bind, Except.bind]
      | ok found =>
          cases found with
          | none => simpa [bind, Except.bind] using ih
          | some held => simp [bind, Except.bind, pure, Except.pure]

theorem foundIn_congr (h : other.find? current (directory.child name) =
    tree.find? current (directory.child name)) :
    foundIn reader other current directory name = foundIn reader tree current directory name := by
  rw [foundIn, foundIn, readFile, readFile, FileTree.isFile_congr h, FileTree.content?_congr h]

/-- Up to the file that decides, the trees have to be the same. -/
theorem loadFirst_congr {before after : List Text}
    (hdecides : foundIn reader tree current directory name ≠ .ok none)
    (hsame : ∀ read ∈ before ++ [name], other.find? current (directory.child read) =
      tree.find? current (directory.child read)) :
    loadFirst reader other current directory (before ++ name :: after) =
      loadFirst reader tree current directory (before ++ name :: after) := by
  induction before with
  | nil =>
      rw [List.nil_append, loadFirst_cons, loadFirst_cons,
        foundIn_congr (hsame name (List.mem_singleton_self name))]
      cases hfound : foundIn reader tree current directory name with
      | error fault => rfl
      | ok found =>
          cases found with
          | none => exact absurd hfound hdecides
          | some configuration => rfl
  | cons earlier rest ih =>
      obtain ⟨hearlier, hrest⟩ := List.forall_mem_cons.mp hsame
      rw [List.cons_append, loadFirst_cons, loadFirst_cons, foundIn_congr hearlier, ih hrest]

theorem load_of_realPath {start : Option Path} {real : AbsolutePath}
    (h : tree.realPath current (start.getD current) = .ok real) :
    load reader tree current start none = loadFirst reader tree current real.val fileNames := by
  simp only [load, h]
  rfl

/-- A file with only files before it that say nothing. -/
def ComesFirst (reader : Reader) (tree : FileTree) (current directory : Path)
    (names : List Text) (name : Text) : Prop :=
  ∃ before after, names = before ++ name :: after ∧
    ∀ earlier ∈ before, SaysNothing reader tree current (directory.child earlier)

theorem decidedBy_iff_comesFirst (htables : HoldTables reader tree current directory names)
    {found : Except Fault (Option Table)} :
    DecidedBy reader tree current directory names found ↔
      ∃ name ∈ names, ComesFirst reader tree current directory names name ∧
        foundIn reader tree current directory name = found := by
  constructor
  · rintro ⟨before, name, after, rfl, hbefore, hfound⟩
    refine ⟨name, by simp, ⟨before, after, rfl, fun earlier hearlier => ?_⟩, hfound⟩
    exact (foundIn_eq_none_iff (htables earlier (by simp [hearlier]))).mp (hbefore earlier hearlier)
  · rintro ⟨name, -, ⟨before, after, rfl, hbefore⟩, hfound⟩
    exact ⟨before, name, after, rfl,
      fun earlier hearlier => foundIn_of_saysNothing (hbefore earlier hearlier), hfound⟩

theorem ComesFirst.mem (h : ComesFirst reader tree current directory names name) :
    name ∈ names := by
  obtain ⟨before, after, rfl, -⟩ := h
  simp

/-- Of a directory the first file decides that says something or cannot be read; what the files
after it hold changes nothing. -/
theorem load_fromFirstFile {start : Option Path} (hproper : (start.getD current).IsProper)
    (hdirectory : tree.isDirectoryAt current (start.getD current) = .ok true) :
    ∃ directory : AbsolutePath, tree.realPath current (start.getD current) = .ok directory ∧
      (HoldTables reader tree current directory.val fileNames →
        (∀ configuration, load reader tree current start none = .ok configuration ↔
          (∃ name entries, ComesFirst reader tree current directory.val fileNames name ∧
              entries ≠ [] ∧
              Extracts reader tree current (directory.val.child name) entries ∧
              WithRootPath directory.val entries configuration) ∨
            (∀ name ∈ fileNames, SaysNothing reader tree current (directory.val.child name)) ∧
              configuration = []) ∧
        ∀ fault, load reader tree current start none = .error fault ↔
          ∃ name, ComesFirst reader tree current directory.val fileNames name ∧
            CannotBeRead reader tree current (directory.val.child name) fault) ∧
      ∀ before name after, fileNames = before ++ name :: after →
        (∃ entries, entries ≠ [] ∧
            Extracts reader tree current (directory.val.child name) entries) ∨
          (∃ fault, CannotBeRead reader tree current (directory.val.child name) fault) →
        ∀ other : FileTree, other.realPath current (start.getD current) = .ok directory →
          (∀ read ∈ before ++ [name], other.find? current (directory.val.child read) =
            tree.find? current (directory.val.child read)) →
          load reader other current start none = load reader tree current start none := by
  obtain ⟨directory, hreal⟩ := FileTree.exists_realPath_of_isDirectoryAt hproper hdirectory
  refine ⟨directory, hreal, fun htables => ⟨fun configuration => ?_, fun fault => ?_⟩, ?_⟩
  · rw [load_of_realPath hreal, loadFirst_eq_ok_iff, decidedBy_iff_comesFirst htables]
    refine or_congr ⟨?_, ?_⟩ (and_congr_left fun _ => forall₂_congr fun name hname =>
      foundIn_eq_none_iff (htables name hname))
    · rintro ⟨name, hname, hfirst, hfound⟩
      obtain ⟨entries, hentries⟩ := (foundIn_eq_some_iff (htables name hname)).mp hfound
      exact ⟨name, entries, hfirst, hentries⟩
    · rintro ⟨name, entries, hfirst, hentries⟩
      exact ⟨name, hfirst.mem, hfirst,
        (foundIn_eq_some_iff (htables name hfirst.mem)).mpr ⟨entries, hentries⟩⟩
  · rw [load_of_realPath hreal, loadFirst_eq_error_iff, decidedBy_iff_comesFirst htables]
    constructor
    · rintro ⟨name, hname, hfirst, hfound⟩
      exact ⟨name, hfirst, (foundIn_eq_fault_iff (htables name hname)).mp hfound⟩
    · rintro ⟨name, hfirst, hfault⟩
      exact ⟨name, hfirst.mem, hfirst, foundIn_of_cannotBeRead hfault⟩
  · intro before name after hnames hdecides other hother hsame
    rw [load_of_realPath hreal, load_of_realPath hother, hnames]
    exact loadFirst_congr (foundIn_ne_none hdecides) hsame

def projectTree : FileTree :=
  [("/proj/.sassimport.toml", Entry.directory),
    ("/proj/sassimport.toml", .file (Text.encode extensionText)),
    ("/work", .link "proj".toList)].foldl
      (fun tree (path, entry) => tree.put ⟨.root, []⟩ (.ofText path.toList) entry) .empty

def strayTree : FileTree :=
  projectTree.put ⟨.root, []⟩ (.ofText "/proj/pyproject.toml".toList) (.file ⟨#[0xff]⟩)

theorem extracts_extensionText :
    Extracts Toml.parse? strayTree ⟨.root, []⟩
      ((Path.ofText "/proj".toList).child "sassimport.toml".toList)
      [(Setting.extensions.name, .text ".scss".toList)] := by
  have hcontent : strayTree.content? ⟨.root, []⟩
      ((Path.ofText "/proj".toList).child "sassimport.toml".toList) =
        .ok (Text.encode extensionText) := by
    cbv
  have hdecode : Text.decode? (Text.encode extensionText) = some extensionText := by
    decide +kernel
  exact ⟨_, ⟨_, _, hcontent, hdecode, parse?_extensionText⟩, if_neg (by decide +kernel)⟩

theorem holdTables_strayTree :
    HoldTables Toml.parse? strayTree ⟨.root, []⟩ (.ofText "/proj".toList) fileNames := by
  intro name hname table hholds
  by_cases hproject : name = projectFileName
  · have hcontent : strayTree.content? ⟨.root, []⟩
        ((Path.ofText "/proj".toList).child projectFileName) = .ok ⟨#[0xff]⟩ := by
      cbv
    obtain ⟨bytes, text, hbytes, hdecode, -⟩ := hholds
    rw [hproject, hcontent] at hbytes
    obtain rfl := Except.ok.inj hbytes
    have hstray : Text.decode? ⟨#[0xff]⟩ = none := by decide +kernel
    cases hstray.symm.trans hdecode
  · refine ⟨table, if_neg ?_⟩
    simpa [Path.name, Path.child] using hproject

theorem load_fromFirstFile_strayLast :
    (Path.ofText "work".toList).IsProper ∧
      strayTree.isDirectoryAt ⟨.root, []⟩ (.ofText "work".toList) = .ok true ∧
      load Toml.parse? strayTree ⟨.root, []⟩ (some (.ofText "work".toList)) none =
        .ok [(Setting.extensions.name, .text ".scss".toList),
          (Setting.rootPath.name, .text "/proj".toList)] ∧
      load Toml.parse? projectTree ⟨.root, []⟩ (some (.ofText "work".toList)) none =
        load Toml.parse? strayTree ⟨.root, []⟩ (some (.ofText "work".toList)) none := by
  have hproper : (Path.ofText "work".toList).IsProper := Path.isProper_ofText _
  have hdirectory : strayTree.isDirectoryAt ⟨.root, []⟩ (.ofText "work".toList) = .ok true := by
    cbv
  have hstart : strayTree.realPath ⟨.root, []⟩ (.ofText "work".toList) =
      .ok ⟨.ofText "/proj".toList, by decide +kernel⟩ := by
    cbv
  have hproject : projectTree.realPath ⟨.root, []⟩ (.ofText "work".toList) =
      .ok ⟨.ofText "/proj".toList, by decide +kernel⟩ := by
    cbv
  obtain ⟨directory, hreal, hload, hsame⟩ :=
    @load_fromFirstFile Toml.parse? strayTree ⟨.root, []⟩ (some (.ofText "work".toList))
      hproper hdirectory
  obtain rfl := Except.ok.inj (hreal.symm.trans hstart)
  have hfirst : ∀ earlier ∈ [".sassimport.toml".toList],
      SaysNothing Toml.parse? strayTree ⟨.root, []⟩
        ((Path.ofText "/proj".toList).child earlier) := by
    rintro earlier hearlier
    rw [List.mem_singleton.mp hearlier]
    exact .missing (by cbv)
  have hnames : fileNames = [".sassimport.toml".toList] ++ "sassimport.toml".toList ::
      [projectFileName] := rfl
  refine ⟨hproper, hdirectory, ((hload holdTables_strayTree).1 _).mpr (.inl ?_), ?_⟩
  · exact ⟨_, _, ⟨_, _, hnames, hfirst⟩, List.cons_ne_nil _ _, extracts_extensionText,
      .added rfl⟩
  · refine hsame _ _ _ hnames (.inl ⟨_, List.cons_ne_nil _ _, extracts_extensionText⟩) _ hproject ?_
    intro read hread
    simp only [List.singleton_append, List.mem_cons, List.not_mem_nil, or_false] at hread
    rcases hread with rfl | rfl <;> cbv

end Settings

end Stylesheets
