import Stylesheets.Proofs.FileTree.LinkFree
import Stylesheets.Proofs.Import.Misses
import Stylesheets.Proofs.Import.TriedPaths
import Stylesheets.Proofs.Settings.Roots

/-!
# Recorded paths

A glob import records normal paths.  An import by name records the path that it
finds as it stands, so double dots in its search path are kept.  Where there
are no links a file has one normal path, and it is recorded under this one
unless the search path climbs.
-/

namespace Stylesheets

namespace Importer

variable {importer : Importer} {spelling : Text} {parent : Option Text} {path : Path}

/-- Prefixes and extensions that lead to no other directory. -/
structure HasPlainNames (importer : Importer) : Prop where
  prefixes : ∀ start, Value.text start ∈ importer.naming.prefixes → '/' ∉ start
  extensions : ∀ extension ∈ importer.catalog.settings.extensions, '/' ∉ extension.display

def scope (importer : Importer) : Scope := importer.catalog.scope importer.current

/-- A path is tried for a spelling in one of its search paths. -/
def TriesIn (importer : Importer) (spelling search : Text) (path : Path) : Prop :=
  ∃ start, Value.text start ∈ importer.naming.prefixes ∧
    path ∈ importer.catalog.tryPaths (Spelling.join search [start ++ Spelling.fileName spelling])

theorem exists_prefixes_of_find {found : Option Path}
    (h : importer.find spelling parent = .ok found) :
    ∃ prefixes : List Text, importer.naming.prefixes = prefixes.map .text := by
  obtain ⟨resolver, hresolver, -⟩ := Fault.bind_eq_ok_iff.mp h
  obtain ⟨prefixes, hprefixes, -⟩ := Fault.bind_eq_ok_iff.mp hresolver
  exact ⟨prefixes, Settings.mapM_textOf_eq_ok_iff.mp hprefixes⟩

theorem isFile_of_isRequirable (h : importer.isRequirable path = .ok true) :
    importer.tree.isFile importer.current path = .ok true := by
  obtain ⟨isFile, hfile, hrest⟩ := Fault.bind_eq_ok_iff.mp h
  cases isFile with
  | true => exact hfile
  | false => cases hrest

theorem triesIn_of_find (h : importer.find spelling parent = .ok (some path)) :
    importer.isRequirable path = .ok true ∧
      ∃ search ∈ importer.scope.searchPaths (Spelling.directory spelling) parent,
        importer.TriesIn spelling search path := by
  obtain ⟨prefixes, hprefixes⟩ := exists_prefixes_of_find h
  obtain ⟨⟨before, after, hpaths, -⟩, hfile⟩ := (find_eq_some_iff hprefixes).mp h
  have hmem : path ∈ importer.triedPaths prefixes spelling parent := by simp [hpaths]
  obtain ⟨candidate, hcandidate, htried⟩ := List.mem_flatMap.mp hmem
  obtain ⟨search, hsearch, hnamed⟩ := List.mem_flatMap.mp hcandidate
  obtain ⟨start, hstart, rfl⟩ := List.mem_map.mp hnamed
  exact ⟨hfile, search, hsearch, start, by rw [hprefixes]; exact List.mem_map_of_mem hstart, htried⟩

/-- The search path that a file is found in decides whether its path is normal. -/
theorem isNormal_of_triesIn (hroots : ∀ root ∈ importer.catalog.settings.roots, root.IsNormal)
    (hplain : importer.HasPlainNames) {search : Text}
    (hfile : importer.isRequirable path = .ok true) (h : importer.TriesIn spelling search path) :
    (Path.doubleDot ∉ Path.steps search → path.IsNormal) ∧
      (Path.isStep (Spelling.fileName spelling) = true → path.IsNormal →
        Path.doubleDot ∉ Path.steps search) := by
  obtain ⟨start, hstart, htried⟩ := h
  have hname : '/' ∉ start ++ Spelling.fileName spelling := by
    rw [List.mem_append, not_or]
    exact ⟨hplain.prefixes start hstart, Spelling.not_mem_fileName spelling⟩
  have hproper := Catalog.isProper_of_mem_tryPaths (fun root hroot => (hroots root hroot).isProper)
    htried
  have hnormal := Path.isNormal_iff_dropLast (isAbsolute_of_mem_tryPaths htried) hproper
    (FileTree.getLast?_ne_of_isFile (isFile_of_isRequirable hfile))
  obtain ⟨above, habove, hbegins, hexact⟩ := Catalog.dropLast_of_mem_tryPaths
    (fun root hroot => (hroots root hroot).isProper) hplain.extensions hname htried
  have hclear : Path.doubleDot ∉ above.segments := by
    rcases habove with hroot | ⟨rfl, -⟩
    · exact (hroots above hroot).not_mem
    · exact List.not_mem_nil
  have hsearch := Path.mem_append_ofText_iff hclear search
  rw [hnormal, ← hsearch]
  refine ⟨fun hclimbs hmem => hclimbs (hbegins.subset hmem), fun hstep hkept => ?_⟩
  rwa [← hexact (Path.isStep_append_right start hstep)]

/-- How a path is found by name, and when it is normal. -/
structure IsFound (importer : Importer) (spelling : Text) (parent : Option Text) (path : Path) :
    Prop where
  searched : importer.HasPlainNames →
    ∃ search ∈ importer.scope.searchPaths (Spelling.directory spelling) parent,
      importer.TriesIn spelling search path ∧
        (Path.doubleDot ∉ Path.steps search → path.IsNormal) ∧
        (Path.isStep (Spelling.fileName spelling) = true → path.IsNormal →
          Path.doubleDot ∉ Path.steps search)
  level : importer.HasPlainNames → Path.doubleDot ∉ Path.steps (Spelling.directory spelling) →
    (∀ file, parent = some file → importer.scope.IsBelowRoot file) → path.IsNormal

theorem isFound_of_find
    (hroots : ∀ root ∈ importer.catalog.settings.rootPath :: importer.catalog.settings.roots,
      root.IsNormal)
    (h : importer.find spelling parent = .ok (some path)) :
    path.IsProper ∧ importer.IsFound spelling parent path := by
  obtain ⟨hfile, search, hsearch, htries⟩ := triesIn_of_find h
  have hrootsOnly := (List.forall_mem_cons.mp hroots).2
  obtain ⟨start, hstart, htried⟩ := htries
  refine ⟨Catalog.isProper_of_mem_tryPaths (fun root hroot => (hrootsOnly root hroot).isProper)
    htried, fun hplain => ?_, fun hplain hdirectory hbelow => ?_⟩
  · exact ⟨search, hsearch, ⟨start, hstart, htried⟩,
      isNormal_of_triesIn hrootsOnly hplain hfile ⟨start, hstart, htried⟩⟩
  · exact (isNormal_of_triesIn hrootsOnly hplain hfile ⟨start, hstart, htried⟩).1
      (Scope.not_mem_steps_of_mem_searchPaths hroots hdirectory hbelow hsearch)

theorem find_of_mem_recorded (h : path ∈ (importer.resolve spelling parent).recorded) :
    importer.find spelling parent = .ok (some path) := by
  unfold resolve at h
  rcases hfind : importer.find spelling parent with fault | _ | found
  · simp [hfind, Answered.silent] at h
  · simp [hfind] at h
  · rw [hfind] at h
    rw [List.mem_singleton.mp h]

/-! ## Paths that a glob import names -/

theorem mem_globbed {base : Path} {kind : GlobKind} {leftOut files : List Path}
    (h : importer.globbed base kind leftOut = .ok files) (hpath : path ∈ files) :
    Glob.Lists importer.tree importer.current base kind path ∧
      importer.isRequirable path = .ok true := by
  by_cases hlong : Glob.IsTooLong importer.tree importer.current base
  · cases h.symm.trans (globbed_eq_error hlong)
  · rw [globbed_eq_importable hlong] at h
    rcases Glob.importable_eq_filter importer.isRequirable leftOut
        ((Glob.listed importer.tree importer.current base kind).mergeSort Glob.inOrder) with
      ⟨other, -, -, fault, -, hfault⟩ | ⟨-, hfiltered⟩
    · cases h.symm.trans hfault
    · obtain rfl := Except.ok.inj (h.symm.trans hfiltered)
      obtain ⟨hlisted, hkeeps⟩ := List.mem_filter.mp hpath
      rw [List.mem_mergeSort, Glob.mem_listed_iff] at hlisted
      refine ⟨hlisted, ?_⟩
      rw [Glob.keeps, Bool.and_eq_true] at hkeeps
      cases htest : importer.isRequirable path with
      | error fault => simp [htest] at hkeeps
      | ok answer => simpa [htest] using hkeeps.2

theorem isNormal_of_lists {base : Path} {kind : GlobKind} (hbase : base.IsNormal)
    (h : Glob.Lists importer.tree importer.current base kind path) : path.IsNormal := by
  obtain ⟨names, -, -, rfl, address, -, -, hsome⟩ := h
  exact hbase.descend fun name hname =>
    Listing.isName_of_isSome importer.tree.wellFormed hsome name (List.mem_append_right _ hname)

theorem isNormal_of_expand {parent : Text}
    (h : path ∈ (importer.expand spelling parent).recorded) :
    path.IsNormal ∧ importer.isRequirable path = .ok true := by
  rcases importer.expand_cases spelling parent with ⟨fault, hexpand⟩ | ⟨files, hexpand, -⟩
  · rw [hexpand] at h
    cases h
  · rw [hexpand] at h
    have houtcome : (importer.expand spelling parent).outcome = .ok files := by rw [hexpand]
    cases hspec : importer.globSpec spelling parent with
    | error fault => simp [expand, hspec, bind, Except.bind, Answered.silent] at houtcome
    | ok spec =>
        rw [expand_outcome hspec] at houtcome
        obtain ⟨hlists, hfile⟩ := mem_globbed houtcome h
        exact ⟨isNormal_of_lists (isNormal_of_globSpec hspec) hlists, hfile⟩

end Importer

namespace Request

/-- The spelling and the importing file of an import by name. -/
def named? : Request → Option (Text × Option Text)
  | resolve spelling parent => some (spelling, parent)
  | imports spelling parent => if Glob.isGlob spelling then none else some (spelling, some parent)
  | _ => none

def isGlob : Request → Bool
  | expand _ _ => true
  | imports spelling _ => Glob.isGlob spelling
  | _ => false

def isImport (request : Request) : Bool := request.isGlob || request.named?.isSome

theorem named?_eq_none {request : Request} (h : request.isGlob = true) : request.named? = none := by
  cases request with
  | imports spelling parent => exact if_pos h
  | expand spelling parent => rfl
  | _ => cases h

end Request

namespace Answer

def returned : Answer → List Path
  | file found => found.toList
  | paths found => found
  | files imported => imported.map ImportedFile.path
  | _ => []

end Answer

namespace Session

variable {session : Session} {request : Request} {path : Path}

theorem resolved_of_named {spelling : Text} {parent : Option Text}
    (h : request.named? = some (spelling, parent)) :
    session.resolved request = (session.importer.resolve spelling parent).recorded := by
  cases request with
  | resolve other file =>
      obtain ⟨rfl, rfl⟩ := Prod.mk.inj (Option.some.inj h)
      exact (session.recorded_resolve other file).symm
  | imports other file =>
      rw [Request.named?] at h
      split at h
      · cases h
      · next hglob =>
          obtain ⟨rfl, rfl⟩ := Prod.mk.inj (Option.some.inj h)
          rw [resolved, lookup, if_neg hglob, recorded_resolve]
  | _ => cases h

theorem exists_resolved_of_isGlob (h : request.isGlob = true) :
    ∃ spelling parent,
      session.resolved request = (session.importer.expand spelling parent).recorded := by
  cases request with
  | expand spelling parent => exact ⟨spelling, parent, (session.recorded_expand _ _).symm⟩
  | imports spelling parent =>
      have hglob : Glob.isGlob spelling = true := h
      exact ⟨spelling, parent, by rw [resolved, lookup, if_pos hglob, recorded_expand]⟩
  | _ => cases h

theorem returned_of_isImport (hrequest : request.isImport = true) {answer : Answer}
    (h : (session.perform request).2 = .ok answer) :
    answer.returned = session.resolved request := by
  cases request with
  | resolve spelling parent =>
      obtain ⟨found, -, rfl⟩ := Fault.map_eq_ok_iff.mp h
      rw [resolved, h]
      rfl
  | expand spelling parent =>
      obtain ⟨files, -, rfl⟩ := Fault.map_eq_ok_iff.mp h
      rw [resolved, h]
      rfl
  | imports spelling parent =>
      obtain ⟨files, rfl, hfiles⟩ :=
        (Step.isRecorded ⟨session, .imports spelling parent⟩).imported spelling parent answer rfl h
      exact hfiles
  | _ => cases hrequest

/-! ## Runs of imports -/

theorem IsAlike.refl (session : Session) : session.IsAlike session :=
  ⟨rfl, rfl, rfl, rfl, rfl, rfl⟩

theorem IsAlike.trans {other later : Session} (h : session.IsAlike other)
    (hlater : other.IsAlike later) : session.IsAlike later where
  catalog := hlater.catalog.trans h.catalog
  naming := hlater.naming.trans h.naming
  current := hlater.current.trans h.current
  tree := hlater.tree.trans h.tree
  active := hlater.active.trans h.active
  compiling := hlater.compiling.trans h.compiling

theorem isAlike_perform (h : request.isImport = true) :
    session.IsAlike (session.perform request).1 := by
  have hmove : ∀ other : Session, other.move request = other := fun other => by
    cases request <;> first | rfl | cases h
  rw [perform, hmove]
  exact ⟨rfl, rfl, rfl, rfl, rfl, session.map_compiling_record _⟩

theorem isAlike_of_mem_steps {requests : List Request} {step : Step}
    (hrequests : ∀ request ∈ requests, request.isImport = true)
    (h : step ∈ session.steps requests) :
    session.IsAlike step.before ∧ step.request.isImport = true := by
  induction requests generalizing session with
  | nil => cases h
  | cons request rest ih =>
      obtain ⟨hrequest, hrest⟩ := List.forall_mem_cons.mp hrequests
      rcases List.mem_cons.mp h with rfl | hlater
      · exact ⟨.refl session, hrequest⟩
      · obtain ⟨halike, hstep⟩ := ih hrest hlater
        exact ⟨(isAlike_perform hrequest).trans halike, hstep⟩

def recorded (session : Session) (requests : List Request) : List Path :=
  (session.steps requests).flatMap fun step => step.before.resolved step.request

theorem dependenciesOf_run_of_imports {requests : List Request}
    (hrequests : ∀ request ∈ requests, request.isImport = true) (number : Nat) :
    (session.run requests).dependenciesOf number =
      session.dependenciesOf number ++
        if number = session.active then session.recorded requests else [] := by
  have hactive : ∀ step ∈ session.steps requests,
      (if number = step.before.active then step.before.resolved step.request else []) =
        if number = session.active then step.before.resolved step.request else [] :=
    fun step hstep => by rw [(isAlike_of_mem_steps hrequests hstep).1.active]
  rw [dependenciesOf_run, List.flatMap_congr hactive, recorded]
  split
  · rfl
  · simp

/-- What is known of a path that a request records. -/
structure Records (importer : Importer) (request : Request) (path : Path) : Prop where
  isAbsolute : path.isAbsolute = true
  isProper : path.IsProper
  isRequirable : importer.isRequirable path = .ok true
  isNormal : request.isGlob = true → path.IsNormal
  isFound : ∀ spelling parent, request.named? = some (spelling, parent) →
    importer.IsFound spelling parent path

theorem records_of_mem_resolved
    (hroots : ∀ root ∈ session.catalog.settings.rootPath :: session.catalog.settings.roots,
      root.IsNormal)
    (hrequest : request.isImport = true) (h : path ∈ session.resolved request) :
    Records session.importer request path := by
  cases hglob : request.isGlob with
  | true =>
      obtain ⟨spelling, parent, hresolved⟩ := @exists_resolved_of_isGlob session request hglob
      rw [hresolved] at h
      obtain ⟨hnormal, hfile⟩ := Importer.isNormal_of_expand h
      refine ⟨hnormal.isAbsolute, hnormal.isProper, hfile, fun _ => hnormal, ?_⟩
      intro spelling parent hnamed
      rw [Request.named?_eq_none hglob] at hnamed
      cases hnamed
  | false =>
      rw [Request.isImport, hglob, Bool.false_or] at hrequest
      obtain ⟨⟨spelling, parent⟩, hnamed⟩ := Option.isSome_iff_exists.mp hrequest
      rw [resolved_of_named hnamed] at h
      have hfind := Importer.find_of_mem_recorded h
      obtain ⟨hproper, hfound⟩ := Importer.isFound_of_find hroots hfind
      refine ⟨Importer.isAbsolute_of_find hfind, hproper, (Importer.triesIn_of_find hfind).1,
        fun hother => absurd (hglob.symm.trans hother) Bool.false_ne_true,
        fun other file hsame => ?_⟩
      obtain ⟨rfl, rfl⟩ := Prod.mk.inj (Option.some.inj (hnamed.symm.trans hsame))
      exact hfound

theorem normalize_eq_of_locate_eq {tree : FileTree} {current other : Path} (hfree : tree.LinkFree)
    (hpath : path.isAbsolute = true ∧ path.IsProper)
    (hother : other.isAbsolute = true ∧ other.IsProper)
    (hfile : tree.isFile current path = .ok true)
    (hlocate : tree.locate true current path = tree.locate true current other)
    (hanchor : path.anchor = other.anchor) : path.normalize = other.normalize := by
  obtain ⟨reached, content, hreached, -⟩ := FileTree.exists_of_isFile hfile
  have hsegments := hfree.eq_segments_normalize hpath.1 hpath.2 hreached
  rw [hfree.eq_segments_normalize hother.1 hother.2 (hlocate.symm.trans hreached)] at hsegments
  rw [Path.normalize, Path.normalize, hanchor, Path.mk.injEq]
  exact ⟨rfl, hsegments.symm⟩

/--
Imports record the paths of the files that they return.  A glob import records
normal paths, and an import by name does so unless the search path in which it
finds the file climbs; the paths of one file differ only in detours over double
dots, so that two normal ones are the same.
-/
theorem run_recordsPaths {tree : FileTree} {start : Path} {given : Setting → Option Value}
    {requests : List Request} (hstart : start.IsNormal)
    (hsettings : Settings.ofValues tree start given = .ok session.catalog.settings)
    (hrequests : ∀ request ∈ requests, request.isImport = true) :
    (∀ number, (session.run requests).dependenciesOf number =
        session.dependenciesOf number ++
          if number = session.active then session.recorded requests else []) ∧
      (∀ step ∈ session.steps requests,
        (∀ answer, step.outcome = .ok answer →
          answer.returned = step.before.resolved step.request) ∧
        ∀ path ∈ step.before.resolved step.request,
          Records session.importer step.request path ∧
            (path.IsNormal ↔ Path.doubleDot ∉ path.segments)) ∧
      (session.tree.LinkFree →
        ∀ path ∈ session.recorded requests, ∀ other ∈ session.recorded requests,
          session.tree.locate true session.current path =
              session.tree.locate true session.current other →
            path.anchor = other.anchor →
              path.normalize = other.normalize ∧
                (path.IsNormal → other.IsNormal → path = other)) := by
  have hnormal := Settings.isNormal_of_ofValues hstart hsettings
  have hroots := List.forall_mem_cons.mpr hnormal
  have hrecords : ∀ step ∈ session.steps requests, ∀ path ∈ step.before.resolved step.request,
      Records session.importer step.request path := by
    intro step hstep path hpath
    obtain ⟨halike, himport⟩ := isAlike_of_mem_steps hrequests hstep
    rw [← halike.importer]
    rw [← halike.catalog] at hroots
    exact records_of_mem_resolved hroots himport hpath
  refine ⟨dependenciesOf_run_of_imports hrequests, fun step hstep => ⟨fun answer hanswer => ?_,
    fun path hpath => ?_⟩, fun hfree path hpath other hother hlocate hanchor => ?_⟩
  · exact returned_of_isImport (isAlike_of_mem_steps hrequests hstep).2 hanswer
  · have hpathRecords := hrecords step hstep path hpath
    exact ⟨hpathRecords, Path.isNormal_iff hpathRecords.isAbsolute hpathRecords.isProper⟩
  · obtain ⟨step, hstep, hstepPath⟩ := List.mem_flatMap.mp hpath
    obtain ⟨later, hlater, hlaterPath⟩ := List.mem_flatMap.mp hother
    have hfirst := hrecords step hstep path hstepPath
    have hsecond := hrecords later hlater other hlaterPath
    have hsame := normalize_eq_of_locate_eq hfree ⟨hfirst.isAbsolute, hfirst.isProper⟩
      ⟨hsecond.isAbsolute, hsecond.isProper⟩ (Importer.isFile_of_isRequirable hfirst.isRequirable)
      hlocate hanchor
    refine ⟨hsame, fun hone htwo => ?_⟩
    rw [← hone.normalize_eq, hsame, htwo.normalize_eq]

def pagesTree : FileTree :=
  let put := fun (tree : FileTree) (path : String) =>
    tree.put ⟨.root, []⟩ (.ofText path.toList) (.file ⟨#[]⟩)
  put (put .empty "/css/base.scss") "/css/pages/home.scss"

def pagesGiven : Setting → Option Value
  | .roots => some (.list [.text "css".toList])
  | _ => none

def pagesSettings : Settings where
  roots := [⟨.root, ["css".toList]⟩]
  rootPath := ⟨.root, []⟩
  extensions := Settings.defaultExtensions.map .text
  prefixes := Settings.defaultPrefixes.map .text
  marker := .text Settings.defaultMarker
  excludes := []
  bindings := []
  roots_isAbsolute := List.forall_mem_singleton.mpr rfl
  rootPath_isAbsolute := Path.isAbsolute_root

theorem ofValues_pagesGiven :
    Settings.ofValues pagesTree ⟨.root, []⟩ pagesGiven = .ok pagesSettings := by
  cbv

def pagesSession : Session where
  catalog := ⟨pagesSettings, none, Template.handlebars⟩
  naming := .default
  current := ⟨.root, []⟩
  tree := pagesTree
  compilations := [⟨none, []⟩]
  active := 0
  active_lt := Nat.zero_lt_one

theorem linkFree_pagesTree : pagesTree.LinkFree :=
  FileTree.linkFree_of_entries (by cbv)

def importsOf (name : Text) : List Request :=
  [.imports name "/css/pages/home.scss".toList,
    .imports "../*".toList "/css/pages/home.scss".toList]

theorem run_levelImport :
    pagesTree.LinkFree ∧
      (pagesSession.run (importsOf "base".toList)).dependenciesOf 0 =
        pagesSession.recorded (importsOf "base".toList) ∧
      pagesSession.recorded (importsOf "base".toList) =
        [.ofText "/css/base.scss".toList, .ofText "/css/base.scss".toList] := by
  have hrequests : ∀ request ∈ importsOf "base".toList, request.isImport = true := by
    decide +kernel
  have hruns := @run_recordsPaths pagesSession pagesTree ⟨.root, []⟩ pagesGiven _
    (Path.isNormal_of_names Path.isAbsolute_root (List.forall_mem_nil _)) ofValues_pagesGiven
    hrequests
  exact ⟨linkFree_pagesTree, hruns.1 0, by cbv⟩

/-- The name climbs from the importing file, and the file is recorded under two paths. -/
theorem run_climbingImport :
    Settings.ofValues pagesTree ⟨.root, []⟩ pagesGiven = .ok pagesSession.catalog.settings ∧
      (∀ request ∈ importsOf "../base".toList, request.isImport = true) ∧
      pagesSession.tree.LinkFree ∧
      (pagesSession.run (importsOf "../base".toList)).dependenciesOf 0 =
        [.ofText "/css/pages/../base.scss".toList, .ofText "/css/base.scss".toList] ∧
      pagesSession.tree.locate true pagesSession.current
          (.ofText "/css/pages/../base.scss".toList) =
        pagesSession.tree.locate true pagesSession.current (.ofText "/css/base.scss".toList) ∧
      ¬ (Path.ofText "/css/pages/../base.scss".toList).IsNormal ∧
      Path.ofText "/css/pages/../base.scss".toList ≠ Path.ofText "/css/base.scss".toList := by
  refine ⟨ofValues_pagesGiven, by decide +kernel, linkFree_pagesTree, by cbv, by cbv, ?_, ?_⟩
  · exact fun hnormal => absurd hnormal.not_mem (by decide +kernel)
  · decide +kernel

end Session

end Stylesheets
