import Stylesheets.Proofs.FileTree.LinkFree
import Stylesheets.Proofs.Import.Dependencies

/-!
# Imports that lead nowhere

A search goes on after every path that is a miss, and finding nothing is an
answer of it.  What is missing, what is no file and what cannot be a name are
misses.  Only a name that is too long is none, and ends a search with a fault.
-/

namespace Stylesheets

namespace FileTree

/-- No part of a way is too long for a name. -/
def AreShort (segments : List Text) : Prop :=
  ∀ segment ∈ segments, Text.byteLength segment ≤ maxNameBytes

/-- The path and all its names are short enough, and so is what links lead to. -/
structure Fits (tree : FileTree) (path : Path) : Prop where
  text : Text.byteLength path.text ≤ maxPathBytes
  segments : AreShort path.segments
  targets : ∀ address target, tree.get? address = some (.link target) →
    AreShort (target.splitOn '/')

variable {tree : FileTree} {current path : Path}

theorem walk_ne_nameTooLong
    (htargets : ∀ address target, tree.get? address = some (.link target) →
      AreShort (target.splitOn '/'))
    (followLast : Bool) (links : Nat) (address : Address) {segments : List Text}
    (hshort : AreShort segments) :
    tree.walk followLast links address segments ≠ .error .nameTooLong := by
  fun_induction FileTree.walk tree followLast links address segments with
  | case1 => simp
  | case2 links address segment rest hfile => simp
  | case3 links address segment rest hdirectory hstep ih =>
      exact ih (List.forall_mem_cons.mp hshort).2
  | case4 links address rest hdirectory hstep ih =>
      exact ih (List.forall_mem_cons.mp hshort).2
  | case5 links address segment rest hdirectory hstep hdots hlong =>
      exact absurd (List.forall_mem_cons.mp hshort).1 (Nat.not_le.mpr hlong)
  | case6 links address segment rest hdirectory hstep hdots hfits hentry => simp
  | case7 links address segment rest hdirectory hstep hdots hfits target hentry hlast => simp
  | case8 address segment rest hdirectory hstep hdots hfits target hentry hlast => simp
  | case9 address segment rest hdirectory hstep hdots hfits target hentry hlast left ih =>
      exact ih (List.forall_mem_append.mpr
        ⟨htargets _ target hentry, (List.forall_mem_cons.mp hshort).2⟩)
  | case10 links address segment rest hdirectory hstep hdots hfits entry hlink hentry ih =>
      exact ih (List.forall_mem_cons.mp hshort).2

theorem Fits.not_isTooLong (h : tree.Fits path) : ¬ Glob.IsTooLong tree current path := by
  intro hlong
  have hlocate : tree.locate true current path = .error .nameTooLong := by
    unfold Glob.IsTooLong find? at hlong
    cases hwalk : tree.locate true current path with
    | error obstacle =>
        rw [hwalk] at hlong
        exact congrArg Except.error (Except.error.inj hlong)
    | ok address =>
        rw [hwalk] at hlong
        cases hentry : tree.get? address <;> simp [hentry] at hlong
  rw [locate, if_neg (Nat.not_lt.mpr h.text)] at hlocate
  split at hlocate
  · cases hlocate
  · exact walk_ne_nameTooLong h.targets true maxLinks _ h.segments hlocate

end FileTree

/-! ## Where a search ends -/

namespace Importer

variable {importer : Importer} {prefixes extensions : List Text} {spelling : Text}
  {parent : Option Text} {path : Path}

theorem Reaches.unique {other : Path} (h : importer.Reaches prefixes spelling parent path)
    (hstops : ¬ importer.Misses path) (hother : importer.Reaches prefixes spelling parent other)
    (hstopsOther : ¬ importer.Misses other) : path = other :=
  Option.some.inj ((find?_stopsAt_eq_some_iff.mpr ⟨hstops, h⟩).symm.trans
    (find?_stopsAt_eq_some_iff.mpr ⟨hstopsOther, hother⟩))

theorem find_of_reaches (hprefixes : importer.naming.prefixes = prefixes.map .text)
    (h : importer.Reaches prefixes spelling parent path) (hstops : ¬ importer.Misses path) :
    importer.find spelling parent = (importer.isRequirable path).map fun _ => some path := by
  rcases find_cases hprefixes spelling parent with
    ⟨hmisses, -⟩ | ⟨other, hother, hstopsOther, -, -, hfind⟩
  · obtain ⟨before, after, hpaths, -⟩ := h
    exact absurd (hmisses path (by simp [hpaths])) hstops
  · obtain rfl := h.unique hstops hother hstopsOther
    exact hfind

theorem find_eq_none_iff (hprefixes : importer.naming.prefixes = prefixes.map .text) :
    importer.find spelling parent = .ok none ↔
      ∀ path ∈ importer.triedPaths prefixes spelling parent, importer.Misses path := by
  rcases find_cases hprefixes spelling parent with
    ⟨hmisses, hfind⟩ | ⟨path, ⟨before, after, hpaths, -⟩, hstops, -, -, hfind⟩
  · exact iff_of_true hfind hmisses
  · refine iff_of_false ?_ fun hmisses => hstops (hmisses path (by simp [hpaths]))
    rw [hfind]
    cases importer.isRequirable path <;> simp [Except.map]

theorem find_eq_some_iff (hprefixes : importer.naming.prefixes = prefixes.map .text) :
    importer.find spelling parent = .ok (some path) ↔
      importer.Reaches prefixes spelling parent path ∧ importer.isRequirable path = .ok true := by
  constructor
  · intro hfound
    rcases find_cases hprefixes spelling parent with
      ⟨-, hfind⟩ | ⟨other, hreaches, hstops, -, -, hfind⟩
    · cases hfind.symm.trans hfound
    · obtain ⟨answer, hanswer, hsame⟩ := Fault.map_eq_ok_iff.mp (hfind.symm.trans hfound)
      obtain rfl := Option.some.inj hsame
      cases answer with
      | true => exact ⟨hreaches, hanswer⟩
      | false => exact absurd hanswer hstops
  · rintro ⟨hreaches, hfile⟩
    rw [find_of_reaches hprefixes hreaches (by simp [Misses, hfile]), hfile]
    rfl

theorem find_eq_error_iff (hprefixes : importer.naming.prefixes = prefixes.map .text)
    (hextensions : importer.catalog.settings.extensions = extensions.map .text) {fault : Fault} :
    importer.find spelling parent = .error fault ↔
      fault = .breach .system ∧ ∃ path, importer.Reaches prefixes spelling parent path ∧
        Glob.IsTooLong importer.tree importer.current path := by
  constructor
  · intro hfault
    rcases find_cases hprefixes spelling parent with
      ⟨-, hfind⟩ | ⟨path, hreaches, -, -, -, hfind⟩
    · cases hfind.symm.trans hfault
    · cases htest : importer.isRequirable path with
      | ok answer => simp [hfind, htest, Except.map] at hfault
      | error cause =>
          obtain ⟨hlong, rfl⟩ := isRequirable_eq_error hextensions htest
          rw [hfind, htest] at hfault
          exact ⟨(Except.error.inj hfault).symm, path, hreaches, hlong⟩
  · rintro ⟨rfl, path, hreaches, hlong⟩
    have htest := isRequirable_of_isTooLong hlong
    rw [find_of_reaches hprefixes hreaches (by simp [Misses, htest]), htest]
    rfl

theorem misses_of_fits
    (hextensions : importer.catalog.settings.extensions = extensions.map .text)
    (hfits : importer.tree.Fits path) (hfile : importer.isRequirable path ≠ .ok true) :
    importer.Misses path := by
  obtain ⟨answer, hanswer⟩ := isRequirable_eq_ok hextensions
    (hfits.not_isTooLong : ¬ Glob.IsTooLong importer.tree importer.current path)
  cases answer with
  | true => exact absurd hanswer hfile
  | false => exact hanswer

theorem exists_find_eq_ok (hprefixes : importer.naming.prefixes = prefixes.map .text)
    (hextensions : importer.catalog.settings.extensions = extensions.map .text)
    (hfits : ∀ path ∈ importer.triedPaths prefixes spelling parent, importer.tree.Fits path) :
    ∃ found, importer.find spelling parent = .ok found ∧
      (found = none ↔ ∀ path ∈ importer.triedPaths prefixes spelling parent,
        importer.isRequirable path ≠ .ok true) := by
  have hmisses : (∀ path ∈ importer.triedPaths prefixes spelling parent, importer.Misses path) ↔
      ∀ path ∈ importer.triedPaths prefixes spelling parent,
        importer.isRequirable path ≠ .ok true :=
    forall₂_congr fun path hpath =>
      ⟨fun hmiss => by simp [show importer.isRequirable path = .ok false from hmiss],
        misses_of_fits hextensions (hfits path hpath)⟩
  cases hfind : importer.find spelling parent with
  | error fault =>
      obtain ⟨-, path, ⟨before, after, hpaths, -⟩, hlong⟩ :=
        (find_eq_error_iff hprefixes hextensions).mp hfind
      exact absurd hlong (hfits path (by simp [hpaths])).not_isTooLong
  | ok found =>
      refine ⟨found, rfl, ?_⟩
      rw [← hmisses, ← find_eq_none_iff hprefixes, hfind, Except.ok.injEq]

end Importer

/-! ## Requests that search -/

theorem map_file_eq_ok_iff {outcome : Except Fault (Option Path)} {found : Option Path} :
    outcome.map Answer.file = .ok (.file found) ↔ outcome = .ok found := by
  cases outcome <;> simp [Except.map]

theorem map_file_eq_error_iff {outcome : Except Fault (Option Path)} {fault : Fault} :
    outcome.map Answer.file = .error fault ↔ outcome = .error fault := by
  cases outcome <;> simp [Except.map]

namespace Session

variable {prefixes extensions : List Text}

theorem perform_resolve_eq_find (session : Session) (spelling : Text) (parent : Option Text) :
    (session.perform (.resolve spelling parent)).2 =
      (session.perform (.find spelling parent)).2 := by
  simp only [perform, ask, Importer.resolve, Answered.map, Answered.silent]
  cases session.importer.find spelling parent <;> rfl

/--
A search answers, with nothing exactly if all paths are misses, unless it comes
to a path that is too long to be asked about: then it is a fault.  With names
that are short enough it always answers, with nothing exactly if no path may be
imported.  What finds nothing is not recorded.
-/
theorem search_answers (session : Session)
    (hprefixes : session.naming.prefixes = prefixes.map .text)
    (hextensions : session.catalog.settings.extensions = extensions.map .text)
    (spelling : Text) (parent : Option Text) :
    (session.perform (.resolve spelling parent)).2 =
        (session.perform (.find spelling parent)).2 ∧
      ((session.perform (.find spelling parent)).2 = .ok (.file none) ↔
        ∀ path ∈ session.importer.triedPaths prefixes spelling parent,
          session.importer.Misses path) ∧
      (∀ path, (session.perform (.find spelling parent)).2 = .ok (.file (some path)) ↔
        session.importer.Reaches prefixes spelling parent path ∧
          session.importer.isRequirable path = .ok true) ∧
      (∀ fault, (session.perform (.find spelling parent)).2 = .error fault ↔
        fault = .breach .system ∧ ∃ path,
          session.importer.Reaches prefixes spelling parent path ∧
            Glob.IsTooLong session.tree session.current path) ∧
      ((∀ path ∈ session.importer.triedPaths prefixes spelling parent, session.tree.Fits path) →
        ∃ found, (session.perform (.find spelling parent)).2 = .ok (.file found) ∧
          (found = none ↔ ∀ path ∈ session.importer.triedPaths prefixes spelling parent,
            session.importer.isRequirable path ≠ .ok true)) ∧
      ∀ number,
        (session.perform (.find spelling parent)).1.dependenciesOf number =
            session.dependenciesOf number ∧
          ((∀ path, (session.perform (.find spelling parent)).2 ≠ .ok (.file (some path))) →
            (session.perform (.resolve spelling parent)).1.dependenciesOf number =
              session.dependenciesOf number) := by
  have hanswer : (session.perform (.find spelling parent)).2 =
      (session.importer.find spelling parent).map .file := rfl
  have hsame := session.perform_resolve_eq_find spelling parent
  refine ⟨hsame, ?_, fun path => ?_, fun fault => ?_, fun hfits => ?_, fun number => ⟨?_, ?_⟩⟩
  · rw [hanswer, map_file_eq_ok_iff]
    exact Importer.find_eq_none_iff hprefixes
  · rw [hanswer, map_file_eq_ok_iff]
    exact Importer.find_eq_some_iff hprefixes
  · rw [hanswer, map_file_eq_error_iff]
    exact Importer.find_eq_error_iff hprefixes hextensions
  · obtain ⟨found, hfind, hnone⟩ := Importer.exists_find_eq_ok hprefixes hextensions hfits
    exact ⟨found, by rw [hanswer, hfind]; rfl, hnone⟩
  · rw [dependenciesOf_perform]
    simp [resolved]
  · intro hmiss
    have hnothing : session.resolved (.resolve spelling parent) = [] := by
      rw [resolved, hsame, hanswer]
      rw [hanswer] at hmiss
      rcases hfind : session.importer.find spelling parent with fault | _ | path
      · rfl
      · rfl
      · exact absurd (by rw [hfind]; rfl) (hmiss path)
    rw [dependenciesOf_perform, hnothing]
    simp

def plainSettings : Settings :=
  { Importer.twoRootsImporter.catalog.settings with
    roots := [⟨.root, ["two".toList]⟩]
    extensions := [.text ".scss".toList]
    roots_isAbsolute := by simp [Path.isAbsolute] }

def plainSession : Session where
  catalog := ⟨plainSettings, none, Template.handlebars⟩
  naming := .default
  current := ⟨.root, []⟩
  tree := Importer.twoRoots
  compilations := [⟨none, []⟩]
  active := 0
  active_lt := by simp

theorem search_missingName :
    (plainSession.perform (.find "b".toList none)).2 = .ok (.file none) ∧
      (∀ path ∈ plainSession.importer.triedPaths Settings.defaultPrefixes "b".toList none,
        plainSession.tree.Fits path ∧ plainSession.importer.Misses path) := by
  have hfind : (plainSession.perform (.find "b".toList none)).2 = .ok (.file none) := by
    cbv
  have htargets : ∀ address target, plainSession.tree.get? address = some (.link target) →
      FileTree.AreShort (target.splitOn '/') := fun address target hentry =>
    absurd hentry (FileTree.linkFree_of_entries (by cbv) address target)
  have hshort : ∀ path ∈
      plainSession.importer.triedPaths Settings.defaultPrefixes "b".toList none,
      Text.byteLength path.text ≤ FileTree.maxPathBytes ∧
        ∀ segment ∈ path.segments, Text.byteLength segment ≤ FileTree.maxNameBytes := by
    decide +kernel
  have hmisses := (@search_answers Settings.defaultPrefixes [".scss".toList] plainSession rfl rfl
    "b".toList none).2.1.mp hfind
  exact ⟨hfind, fun path hpath =>
    ⟨⟨(hshort path hpath).1, (hshort path hpath).2, htargets⟩, hmisses path hpath⟩⟩

set_option maxRecDepth 4000 in
/-- No path of this name may be imported, but the search does not answer so. -/
theorem search_tooLongName :
    plainSession.naming.prefixes = Settings.defaultPrefixes.map .text ∧
      plainSession.catalog.settings.extensions = [".scss".toList].map .text ∧
      (∀ path ∈ plainSession.importer.triedPaths Settings.defaultPrefixes
        (List.replicate 256 'a') none, plainSession.importer.isRequirable path ≠ .ok true) ∧
      (plainSession.perform (.find (List.replicate 256 'a') none)).2 =
        .error (.breach .system) ∧
      (plainSession.perform (.resolve (List.replicate 256 'a') none)).2 =
        .error (.breach .system) := by
  have hnone : ((plainSession.importer.triedPaths Settings.defaultPrefixes
      (List.replicate 256 'a') none).all fun path =>
        !(plainSession.importer.isRequirable path).toBool) = true := by
    cbv
  have hfind : (plainSession.perform (.find (List.replicate 256 'a') none)).2 =
      .error (.breach .system) := by
    cbv
  refine ⟨rfl, rfl, fun path hpath hfile => ?_, hfind, ?_⟩
  · have htest := List.all_eq_true.mp hnone path hpath
    simp [hfile, Except.toBool] at htest
  · rw [perform_resolve_eq_find, hfind]

end Session

end Stylesheets
