import Stylesheets.Import.Session
import Stylesheets.Proofs.Import.Expansion

/-!
# Dependencies of a session

A request adds to the dependencies of the current compilation what it resolves,
and nothing else.  What it resolves can be told from answers: from its own, or
for an import from the answer to the lookup it begins with.  No answer depends
on what was recorded before.
-/

namespace Stylesheets

namespace Importer

variable {importer : Importer} {spelling parent : Text}

theorem nodup_of_importable {isRequirable : Path → Except Fault Bool}
    {leftOut paths files : List Path} (hpaths : paths.Nodup)
    (h : Glob.importable isRequirable leftOut paths = .ok files) : files.Nodup := by
  rcases Glob.importable_eq_filter isRequirable leftOut paths with
    ⟨path, -, -, fault, -, hfault⟩ | ⟨-, hfiltered⟩
  · cases h.symm.trans hfault
  · obtain rfl := Except.ok.inj (h.symm.trans hfiltered)
    exact hpaths.filter _

theorem nodup_of_globbed {base : Path} {kind : GlobKind} {leftOut files : List Path}
    (h : importer.globbed base kind leftOut = .ok files) : files.Nodup := by
  by_cases hlong : Glob.IsTooLong importer.tree importer.current base
  · cases h.symm.trans (globbed_eq_error hlong)
  · rw [globbed_eq_importable hlong] at h
    exact nodup_of_importable ((List.mergeSort_perm _ _).nodup_iff.mpr
      (Glob.nodup_listed importer.tree importer.current base kind)) h

theorem expand_cases (importer : Importer) (spelling parent : Text) :
    (∃ fault, importer.expand spelling parent = .silent (.error fault)) ∨
      ∃ files, importer.expand spelling parent = ⟨.ok files, files⟩ ∧ files.Nodup := by
  cases hspec : importer.globSpec spelling parent with
  | error fault => exact .inl ⟨fault, by simp [expand, hspec, bind, Except.bind]⟩
  | ok spec =>
      cases hfiles : importer.globbed spec.base spec.kind
          (spec.parent :: importer.compiledFile.toList) with
      | error fault => exact .inl ⟨fault, by simp [expand, hspec, hfiles, bind, Except.bind]⟩
      | ok files =>
          exact .inr ⟨files, by simp [expand, hspec, hfiles, bind, Except.bind],
            nodup_of_globbed hfiles⟩

theorem resolve_cases (importer : Importer) (spelling : Text) (parent : Option Text) :
    (∃ fault, importer.resolve spelling parent = .silent (.error fault)) ∨
      ∃ found, importer.resolve spelling parent = ⟨.ok found, found.toList⟩ := by
  unfold resolve
  cases importer.find spelling parent with
  | error fault => exact .inl ⟨fault, rfl⟩
  | ok found => exact .inr ⟨found, rfl⟩

theorem path_of_content {dialect : Option Dialect} {path : Path} {file : ImportedFile}
    (h : importer.content dialect path = .ok file) : file.path = path := by
  unfold content at h
  -- Only the choice of the dialect differs between the cases.
  cases dialect
  all_goals
    obtain ⟨dialect, -, hread⟩ := Fault.bind_eq_ok_iff.mp h
    obtain ⟨text, -, hconverted⟩ := Fault.bind_eq_ok_iff.mp hread
    obtain ⟨content, -, hfile⟩ := Fault.bind_eq_ok_iff.mp hconverted
    rw [← Except.ok.inj hfile]

theorem map_path_of_contents {paths : List Path} {files : List ImportedFile}
    (h : importer.contents paths = .ok files) : files.map ImportedFile.path = paths := by
  rw [contents, Fault.mapM_eq_ok_iff] at h
  induction paths generalizing files with
  | nil =>
      obtain rfl : files = [] := List.map_eq_nil_iff.mp h.symm
      rfl
  | cons path rest ih =>
      obtain ⟨file, others, rfl, hfirst, hrest⟩ := List.map_eq_cons_iff.mp h.symm
      rw [List.map_cons, path_of_content hfirst.symm, ih hrest.symm]

theorem map_path_of_imports {files : List ImportedFile}
    (h : (importer.imports spelling parent).outcome = .ok files) :
    files.map ImportedFile.path = (importer.imports spelling parent).recorded := by
  unfold imports at h ⊢
  split at h
  · next hglob =>
      rcases importer.expand_cases spelling parent with ⟨fault, hexpand⟩ | ⟨paths, hexpand, -⟩
      · rw [hexpand] at h
        cases h
      · rw [hexpand] at h
        simpa [hglob, hexpand] using map_path_of_contents h
  · next hglob =>
      rcases importer.resolve_cases spelling (some parent) with
        ⟨fault, hresolve⟩ | ⟨found, hresolve⟩
      · rw [hresolve] at h
        cases h
      · rw [hresolve] at h
        simpa [hglob, hresolve, Answered.map] using map_path_of_contents h

end Importer

namespace Session

structure Step where
  before : Session
  request : Request

namespace Step

def after (step : Step) : Session := (step.before.perform step.request).1

def outcome (step : Step) : Except Fault Answer := (step.before.perform step.request).2

end Step

def steps (session : Session) : List Request → List Step
  | [] => []
  | request :: rest => ⟨session, request⟩ :: (session.perform request).1.steps rest

def run (session : Session) (requests : List Request) : Session :=
  requests.foldl (fun session request => (session.perform request).1) session

def answers (session : Session) (requests : List Request) : List (Except Fault Answer) :=
  (session.steps requests).map Step.outcome

/-- The dependencies of a compilation; one that has not begun has none. -/
def dependenciesOf (session : Session) (number : Nat) : List Path :=
  ((session.compilations[number]?).map Compilation.dependencies).getD []

/-! ## What a request resolves -/

def filesOf : Except Fault Answer → List Path
  | .ok (.file found) => found.toList
  | .ok (.paths paths) => paths
  | _ => []

/-- What an import looks up before it reads any file. -/
def lookup (spelling parent : Text) : Request :=
  if Glob.isGlob spelling then .expand spelling parent else .resolve spelling (some parent)

/-- What a request resolves, as its answer or that of its lookup tells. -/
def resolved (session : Session) : Request → List Path
  | .dependOn path => [path]
  | .resolve spelling parent => filesOf (session.perform (.resolve spelling parent)).2
  | .expand spelling parent => filesOf (session.perform (.expand spelling parent)).2
  | .imports spelling parent => filesOf (session.perform (lookup spelling parent)).2
  | _ => []

theorem recorded_expand (session : Session) (spelling parent : Text) :
    (session.importer.expand spelling parent).recorded =
      filesOf (session.perform (.expand spelling parent)).2 := by
  rcases session.importer.expand_cases spelling parent with ⟨fault, h⟩ | ⟨files, h, -⟩ <;>
    simp [perform, ask, h, Answered.map, Answered.silent, Except.map, filesOf]

theorem recorded_resolve (session : Session) (spelling : Text) (parent : Option Text) :
    (session.importer.resolve spelling parent).recorded =
      filesOf (session.perform (.resolve spelling parent)).2 := by
  rcases session.importer.resolve_cases spelling parent with ⟨fault, h⟩ | ⟨found, h⟩ <;>
    simp [perform, ask, h, Answered.map, Answered.silent, Except.map, filesOf]

theorem recorded_ask (session : Session) (request : Request) :
    (session.ask request).recorded = session.resolved request := by
  cases request with
  | imports spelling parent =>
      simp only [ask, resolved, lookup, Importer.imports, Answered.map]
      split
      · exact session.recorded_expand spelling parent
      · exact session.recorded_resolve spelling (some parent)
  | resolve spelling parent => exact session.recorded_resolve spelling parent
  | expand spelling parent => exact session.recorded_expand spelling parent
  | use number =>
      simp only [ask, resolved]
      split <;> rfl
  | _ => rfl

theorem dependenciesOf_record (session : Session) (paths : List Path) (number : Nat) :
    (session.record paths).dependenciesOf number =
      session.dependenciesOf number ++ if number = session.active then paths else [] := by
  unfold dependenciesOf record
  by_cases h : number = session.active
  · subst h
    simp [session.active_lt]
  · simp [h, Ne.symm h]

theorem dependenciesOf_move (session : Session) (request : Request) (number : Nat) :
    (session.move request).dependenciesOf number = session.dependenciesOf number := by
  cases request with
  | compile compiling =>
      unfold dependenciesOf move begin
      rcases lt_trichotomy number session.compilations.length with hlt | rfl | hgt
      · simp [List.getElem?_append_left hlt]
      · simp
      · simp [List.getElem?_append_right hgt.le, List.getElem?_eq_none hgt.le,
          List.getElem?_eq_none
            (by simp; omega : [_].length ≤ number - session.compilations.length)]
  | use other =>
      simp only [move, resume]
      split <;> rfl
  | _ => rfl

theorem dependenciesOf_perform (session : Session) (request : Request) (number : Nat) :
    (session.perform request).1.dependenciesOf number =
      session.dependenciesOf number ++
        if number = session.active then session.resolved request else [] := by
  rw [perform, dependenciesOf_move, dependenciesOf_record, recorded_ask]

theorem map_compiling_record (session : Session) (paths : List Path) :
    (session.record paths).compilations.map Compilation.compiling =
      session.compilations.map Compilation.compiling := by
  refine List.ext_getElem? fun number => ?_
  simp only [record, List.getElem?_map, List.getElem?_modify]
  split <;> cases session.compilations[number]? <;> rfl

theorem map_compiling_perform (session : Session) (request : Request) :
    session.compilations.map Compilation.compiling <+:
      (session.perform request).1.compilations.map Compilation.compiling := by
  rw [perform, ← session.map_compiling_record (session.ask request).recorded]
  cases request with
  | compile compiling => simp [move, begin]
  | use number =>
      simp only [move, resume]
      split <;> exact List.prefix_rfl
  | _ => exact List.prefix_rfl

/-- What one request does to the dependencies of all compilations. -/
structure Step.IsRecorded (step : Step) : Prop where
  extended : ∀ number, step.after.dependenciesOf number =
    step.before.dependenciesOf number ++
      if number = step.before.active then step.before.resolved step.request else []
  kept : step.before.compilations.map Compilation.compiling <+:
    step.after.compilations.map Compilation.compiling
  faulty : ∀ fault, step.outcome = .error fault →
    step.before.resolved step.request = [] ∨
      ∃ spelling parent answer, step.request = .imports spelling parent ∧
        (step.before.perform (lookup spelling parent)).2 = .ok answer
  once : ∀ spelling parent, step.request = .imports spelling parent →
    (step.before.resolved step.request).Nodup
  imported : ∀ spelling parent answer, step.request = .imports spelling parent →
    step.outcome = .ok answer → ∃ files, answer = .files files ∧
      files.map ImportedFile.path = step.before.resolved step.request

theorem resolved_of_faulty_lookup {session : Session} {spelling parent : Text} {fault : Fault}
    (h : (session.perform (lookup spelling parent)).2 = .error fault) :
    session.resolved (.imports spelling parent) = [] := by
  rw [resolved, h]
  rfl

theorem nodup_filesOf_lookup (session : Session) (spelling parent : Text) :
    (filesOf (session.perform (lookup spelling parent)).2).Nodup := by
  unfold lookup
  split
  · rw [← recorded_expand]
    rcases session.importer.expand_cases spelling parent with ⟨fault, h⟩ | ⟨files, h, hnodup⟩
    · simp [h, Answered.silent]
    · simpa [h] using hnodup
  · rw [← recorded_resolve]
    rcases session.importer.resolve_cases spelling (some parent) with ⟨fault, h⟩ | ⟨found, h⟩
    · simp [h, Answered.silent]
    · cases found <;> simp [h]

theorem Step.isRecorded (step : Step) : step.IsRecorded where
  extended := dependenciesOf_perform step.before step.request
  kept := map_compiling_perform step.before step.request
  faulty fault hfault := by
    obtain ⟨session, request⟩ := step
    cases request with
    | imports spelling parent =>
        cases hlookup : (session.perform (lookup spelling parent)).2 with
        | error cause => exact .inl (resolved_of_faulty_lookup hlookup)
        | ok answer => exact .inr ⟨spelling, parent, answer, rfl, hlookup⟩
    | resolve spelling parent =>
        refine .inl ?_
        rw [resolved, show (session.perform (.resolve spelling parent)).2 = _ from hfault]
        rfl
    | expand spelling parent =>
        refine .inl ?_
        rw [resolved, show (session.perform (.expand spelling parent)).2 = _ from hfault]
        rfl
    | dependOn path => cases hfault
    | _ => exact .inl rfl
  once spelling parent hrequest := by
    rw [hrequest]
    exact nodup_filesOf_lookup step.before spelling parent
  imported spelling parent answer hrequest houtcome := by
    obtain ⟨session, request⟩ := step
    obtain rfl : request = .imports spelling parent := hrequest
    obtain ⟨files, hfiles, rfl⟩ := Fault.map_eq_ok_iff.mp houtcome
    refine ⟨files, rfl, ?_⟩
    rw [Importer.map_path_of_imports hfiles, ← recorded_ask]
    rfl

/-- Whether two sessions are alike but for what their compilations depend on. -/
structure IsAlike (session other : Session) : Prop where
  catalog : other.catalog = session.catalog
  naming : other.naming = session.naming
  current : other.current = session.current
  tree : other.tree = session.tree
  active : other.active = session.active
  compiling : other.compilations.map Compilation.compiling =
    session.compilations.map Compilation.compiling

namespace IsAlike

variable {session other : Session}

theorem importer (h : session.IsAlike other) : other.importer = session.importer := by
  have hcompiling : other.compilation.compiling = session.compilation.compiling := by
    have hsome : (other.compilations.map Compilation.compiling)[other.active]? =
        (session.compilations.map Compilation.compiling)[session.active]? := by
      rw [h.compiling, h.active]
    simpa [compilation, other.active_lt, session.active_lt] using hsome
  simp only [Session.importer, h.catalog, h.naming, h.current, h.tree, hcompiling]

theorem getElem? (h : session.IsAlike other) (number : Nat) :
    other.compilations[number]?.map Compilation.compiling =
      session.compilations[number]?.map Compilation.compiling := by
  rw [← List.getElem?_map, ← List.getElem?_map, h.compiling]

theorem ask (h : session.IsAlike other) (request : Request) :
    other.ask request = session.ask request := by
  cases request with
  | use number =>
      have hnumber := h.getElem? number
      simp only [Session.ask]
      cases hother : other.compilations[number]? <;>
        cases hsession : session.compilations[number]? <;>
        simp_all
  | _ =>
      simp only [Session.ask, Session.globbed, Session.content, h.importer, h.catalog, h.tree,
        h.current]

theorem record (h : session.IsAlike other) (paths : List Path) :
    (session.record paths).IsAlike (other.record paths) where
  catalog := h.catalog
  naming := h.naming
  current := h.current
  tree := h.tree
  active := h.active
  compiling := by rw [map_compiling_record, map_compiling_record, h.compiling]

theorem move (h : session.IsAlike other) (request : Request) :
    (session.move request).IsAlike (other.move request) := by
  have hlength : other.compilations.length = session.compilations.length := by
    simpa using congrArg List.length h.compiling
  cases request with
  | compile compiling =>
      exact ⟨h.catalog, h.naming, h.current, h.tree, hlength,
        by simp [Session.move, begin, h.compiling]⟩
  | use number =>
      simp only [Session.move, resume, hlength]
      split
      · exact ⟨h.catalog, h.naming, h.current, h.tree, rfl, h.compiling⟩
      · exact h
  | put path entry =>
      exact ⟨h.catalog, h.naming, h.current, by simp [Session.move, h.tree, h.current],
        h.active, h.compiling⟩
  | delete path =>
      exact ⟨h.catalog, h.naming, h.current, by simp [Session.move, h.tree, h.current],
        h.active, h.compiling⟩
  | _ => exact h

theorem perform (h : session.IsAlike other) (request : Request) :
    (session.perform request).1.IsAlike (other.perform request).1 ∧
      (other.perform request).2 = (session.perform request).2 := by
  rw [Session.perform, Session.perform, h.ask]
  exact ⟨(h.record _).move request, rfl⟩

end IsAlike

/-! ## Runs of requests -/

theorem dependenciesOf_run (session : Session) (requests : List Request) (number : Nat) :
    (session.run requests).dependenciesOf number =
      session.dependenciesOf number ++ (session.steps requests).flatMap fun step =>
        if number = step.before.active then step.before.resolved step.request else [] := by
  induction requests generalizing session with
  | nil => simp [run, steps]
  | cons request rest ih =>
      have hrest := ih (session.perform request).1
      rw [run] at hrest ⊢
      rw [List.foldl_cons, hrest, dependenciesOf_perform, steps, List.flatMap_cons,
        List.append_assoc]

theorem IsAlike.answers {session other : Session} (h : session.IsAlike other)
    (requests : List Request) : other.answers requests = session.answers requests := by
  induction requests generalizing session other with
  | nil => rfl
  | cons request rest ih =>
      obtain ⟨hafter, houtcome⟩ := h.perform request
      have hrest := ih hafter
      unfold Session.answers at hrest ⊢
      rw [steps, steps, List.map_cons, List.map_cons, hrest]
      exact congrArg (· :: _) houtcome

/-- The dependencies after any requests: every step adds to the compilation that is current
what it resolves, and nothing else is ever added, moved or removed.  What was recorded
before has no influence on any answer. -/
theorem run_recordsResolved (session : Session) (requests : List Request) :
    (∀ number, (session.run requests).dependenciesOf number =
      session.dependenciesOf number ++ (session.steps requests).flatMap fun step =>
        if number = step.before.active then step.before.resolved step.request else []) ∧
    (∀ step ∈ session.steps requests, step.IsRecorded) ∧
    ∀ other, session.IsAlike other → other.answers requests = session.answers requests := by
  refine ⟨dependenciesOf_run session requests, fun step _ => step.isRecorded, ?_⟩
  intro other hother
  exact hother.answers requests

end Session

end Stylesheets
