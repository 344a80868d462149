import Stylesheets.Proofs.Import.Breaches
import Stylesheets.Proofs.Import.Dependencies

/-!
# The grammar of glob imports

The last two segments of a spelling decide whether it is a glob import, and
what stands before the pattern whether it is accepted.  An import that is not
accepted is refused before the importing file is looked at; for an accepted one
the only fault, breaches apart, is that this file cannot be found.
-/

namespace Stylesheets

namespace Glob

/-- A star in the last segment, or two stars as the segment before it. -/
def IsGlobLike (spelling : Text) : Prop :=
  (∃ last, (spelling.splitOn '/').getLast? = some last ∧ '*' ∈ last) ∨
    (spelling.splitOn '/').dropLast.getLast? = some doubleStar

def IsDivided (residual pattern spelling : Text) : Prop :=
  (residual = [] ∧ spelling = pattern) ∨ spelling = residual ++ '/' :: pattern

/-- Two stars and one more segment, or a segment with a star. -/
def IsPatternLike (pattern : Text) : Prop :=
  (∃ last, '/' ∉ last ∧ pattern = doubleStar ++ '/' :: last) ∨ ('/' ∉ pattern ∧ '*' ∈ pattern)

def Accepts (residual : Text) (kind : GlobKind) (spelling : Text) : Prop :=
  '*' ∉ residual ∧ kind.IsSpelled residual spelling

/-- Why a spelling is not accepted. -/
inductive IsRefused (spelling : Text) : GlobFault → Prop
  | notGlob (h : ¬ IsGlobLike spelling) : IsRefused spelling (.notGlob spelling)
  | unsupportedPattern {residual pattern : Text} (hglob : IsGlobLike spelling)
      (hdivided : IsDivided residual pattern spelling) (hlike : IsPatternLike pattern)
      (hother : ∀ kind : GlobKind, pattern ≠ kind.pattern) :
      IsRefused spelling (.unsupportedPattern pattern)
  | wildcardInside {residual : Text} {kind : GlobKind} (hglob : IsGlobLike spelling)
      (hspelled : kind.IsSpelled residual spelling) (hstar : '*' ∈ residual) :
      IsRefused spelling (.wildcardInside spelling)

section Splitting

variable {spelling residual pattern previous last : Text} {earlier : List Text}

theorem splitOn_cases (spelling : Text) :
    (∃ last, spelling.splitOn '/' = [last]) ∨
      ∃ earlier previous last, spelling.splitOn '/' = earlier ++ [previous, last] := by
  rcases List.eq_nil_or_concat (spelling.splitOn '/') with hnil | ⟨before, last, hlast⟩
  · exact absurd hnil (List.splitOn_ne_nil _ _)
  · rw [List.concat_eq_append] at hlast
    rcases List.eq_nil_or_concat before with rfl | ⟨earlier, previous, rfl⟩
    · exact .inl ⟨last, hlast⟩
    · exact .inr ⟨earlier, previous, last, by simpa using hlast⟩

theorem split?_of_single (h : spelling.splitOn '/' = [last]) :
    split? spelling = if last.elem '*' then some ([], last) else none := by
  simp [split?, h]

theorem split?_of_append (h : spelling.splitOn '/' = earlier ++ [previous, last]) :
    split? spelling =
      if previous = doubleStar then
        some (Path.joinSegments earlier, Path.joinSegments [previous, last])
      else if last.elem '*' then some (Path.joinSegments (earlier ++ [previous]), last)
      else none := by
  simp [split?, h]

theorem isGlob_iff (spelling : Text) : isGlob spelling = true ↔ IsGlobLike spelling := by
  unfold isGlob IsGlobLike
  rcases splitOn_cases spelling with ⟨last, hsplit⟩ | ⟨earlier, previous, last, hsplit⟩
  · rw [split?_of_single hsplit, hsplit]
    split <;> simp_all
  · rw [split?_of_append hsplit, hsplit]
    have hbefore : (earlier ++ [previous, last]).dropLast = earlier ++ [previous] := by
      rw [List.dropLast_append_cons]
      rfl
    split
    · simp_all
    · split <;> simp_all

theorem isDivided_of_split? (h : split? spelling = some (residual, pattern)) :
    IsDivided residual pattern spelling ∧ IsPatternLike pattern := by
  have hwhole := joinSegments_splitOn spelling
  rcases splitOn_cases spelling with ⟨last, hsplit⟩ | ⟨earlier, previous, last, hsplit⟩
  · have hslash : '/' ∉ last := Path.not_mem_of_mem_splitOn (by rw [hsplit]; simp)
    rw [split?_of_single hsplit] at h
    rw [hsplit] at hwhole
    split at h
    · next hstar =>
        obtain ⟨rfl, rfl⟩ := Prod.mk.inj (Option.some.inj h)
        exact ⟨.inl ⟨rfl, by simpa [Path.joinSegments] using hwhole.symm⟩,
          .inr ⟨hslash, by simpa using hstar⟩⟩
    · cases h
  · have hslash : '/' ∉ last := Path.not_mem_of_mem_splitOn (by rw [hsplit]; simp)
    rw [split?_of_append hsplit] at h
    rw [hsplit] at hwhole
    split at h
    · next hstars =>
        obtain ⟨rfl, rfl⟩ := Prod.mk.inj (Option.some.inj h)
        refine ⟨?_, .inl ⟨last, hslash, by simp [hstars, Path.joinSegments]⟩⟩
        by_cases hempty : earlier = []
        · subst hempty
          exact .inl ⟨rfl, hwhole.symm⟩
        · rw [Path.joinSegments_append hempty (by simp)] at hwhole
          exact .inr hwhole.symm
    · split at h
      · next hstar =>
          obtain ⟨rfl, rfl⟩ := Prod.mk.inj (Option.some.inj h)
          have hconcat : earlier ++ [previous, last] = earlier ++ [previous] ++ [last] := by simp
          rw [hconcat, Path.joinSegments_append (by simp) (by simp)] at hwhole
          exact ⟨.inr (by simpa [Path.joinSegments] using hwhole.symm),
            .inr ⟨hslash, by simpa using hstar⟩⟩
      · cases h

end Splitting

/-! ## Imports that are accepted -/

section Accepting

variable {spelling residual pattern : Text} {kind : GlobKind}

theorem kind?_eq_some_iff : kind? pattern = some kind ↔ pattern = kind.pattern := by
  unfold kind?
  constructor
  · intro h
    split at h
    · next hstar =>
        obtain rfl := Option.some.inj h
        exact hstar
    · split at h
      · next hstars =>
          obtain rfl := Option.some.inj h
          exact hstars
      · cases h
  · rintro rfl
    cases kind <;> rfl

/-- A spelling is accepted and read as the grammar says, or it is refused. -/
theorem parse_cases (spelling : Text) :
    (∃ residual kind, Accepts residual kind spelling ∧ parse spelling = .ok (residual, kind)) ∨
      ∃ cause, IsRefused spelling cause ∧ parse spelling = .error (.glob cause) := by
  have hglob := isGlob_iff spelling
  unfold isGlob at hglob
  unfold parse
  cases hsplit : split? spelling with
  | none =>
      refine .inr ⟨_, .notGlob fun hlike => ?_, rfl⟩
      simpa [hsplit] using hglob.mpr hlike
  | some division =>
      obtain ⟨residual, pattern⟩ := division
      obtain ⟨hdivided, hlike⟩ := isDivided_of_split? hsplit
      have hlooks : IsGlobLike spelling := hglob.mp (by simp [hsplit])
      simp only [kindOf]
      cases hkind : kind? pattern with
      | none =>
          refine .inr ⟨_, .unsupportedPattern hlooks hdivided hlike fun kind hpattern => ?_, rfl⟩
          simp [kind?_eq_some_iff.mpr hpattern] at hkind
      | some kind =>
          obtain rfl := kind?_eq_some_iff.mp hkind
          by_cases hstar : '*' ∈ residual
          · exact .inr ⟨_, .wildcardInside hlooks hdivided hstar, by simp [hstar]⟩
          · exact .inl ⟨residual, kind, ⟨hstar, hdivided⟩, by simp [hstar]⟩

theorem Accepts.parse (h : Accepts residual kind spelling) :
    parse spelling = .ok (residual, kind) :=
  parse_eq_ok h.1 h.2

theorem Accepts.unique {other : Text} {otherKind : GlobKind} (h : Accepts residual kind spelling)
    (hother : Accepts other otherKind spelling) : other = residual ∧ otherKind = kind :=
  Prod.mk.inj (Except.ok.inj (hother.parse.symm.trans h.parse))

theorem Accepts.isGlobLike (h : Accepts residual kind spelling) : IsGlobLike spelling := by
  rw [← isGlob_iff, isGlob]
  have hparse := h.parse
  unfold Glob.parse at hparse
  split at hparse
  · cases hparse
  · next hsplit => rw [hsplit, Option.isSome_some]

end Accepting

end Glob

namespace Importer

variable {importer : Importer} {spelling parent residual : Text} {kind : GlobKind}

theorem importingFile_eq_ok_iff {file : Path} :
    importer.importingFile parent = .ok file ↔ importer.IsImportingFile parent file := by
  refine ⟨fun h => ?_, importingFile_eq_ok⟩
  unfold importingFile at h
  split at h
  · next habsolute => exact .inl ⟨habsolute, (Except.ok.inj h).symm⟩
  · next hrelative =>
      obtain ⟨result, hfind, hresult⟩ := Fault.bind_eq_ok_iff.mp h
      cases result with
      | none => cases hresult
      | some found =>
          exact .inr ⟨by simpa using hrelative, found, hfind, (Except.ok.inj hresult).symm⟩

/-- A relative importing file is unresolved if a search without a parent finds nothing. -/
def IsUnresolved (importer : Importer) (parent : Text) : Prop :=
  Spelling.isAbsolute parent = false ∧ importer.find parent none = .ok none

theorem importingFile_eq_error {fault : Fault} (h : importer.importingFile parent = .error fault) :
    (importer.IsUnresolved parent ∧ fault = .parentUnresolved parent) ∨
      ¬ importer.IsUnresolved parent ∧ ∃ cause, fault = .breach cause := by
  unfold importingFile at h
  split at h
  · cases h
  · next hrelative =>
      cases hfind : importer.find parent none with
      | error cause =>
          rw [hfind] at h
          obtain rfl : cause = fault := Except.error.inj h
          refine .inr ⟨fun hunresolved => ?_, onlyBreaches_find importer parent none cause hfind⟩
          cases hfind.symm.trans hunresolved.2
      | ok result =>
          rw [hfind] at h
          cases result with
          | none => exact .inl ⟨⟨by simpa using hrelative, hfind⟩, (Except.error.inj h).symm⟩
          | some found => cases h

/-! ## Accepted imports -/

theorem globSpec_eq_bind (h : Glob.Accepts residual kind spelling) :
    importer.globSpec spelling parent =
      (importer.importingFile parent).map fun file => ⟨Glob.baseOf file residual, kind, file⟩ := by
  cases hfile : importer.importingFile parent with
  | error fault => simp [globSpec, h.parse, hfile, bind, Except.bind, Except.map]
  | ok file => exact globSpec_eq_ok h.1 h.2 (importingFile_eq_ok_iff.mp hfile)

theorem expand_of_globSpec_error {fault : Fault}
    (h : importer.globSpec spelling parent = .error fault) :
    importer.expand spelling parent = .silent (.error fault) := by
  simp [expand, h, bind, Except.bind]

theorem globSpec_of_parse_error {fault : Fault} (h : Glob.parse spelling = .error fault) :
    importer.globSpec spelling parent = .error fault := by
  simp [globSpec, h, bind, Except.bind]

/-- What an accepted glob import comes to beside an importing file. -/
structure FollowsParent (importer : Importer) (residual : Text) (kind : GlobKind)
    (spelling parent : Text) : Prop where
  spec : ∀ spec, importer.globSpec spelling parent = .ok spec ↔
    ∃ file, importer.IsImportingFile parent file ∧
      spec = ⟨Glob.baseOf file residual, kind, file⟩
  listing : ∀ spec, importer.globSpec spelling parent = .ok spec →
    (importer.expand spelling parent).outcome =
      importer.globbed spec.base spec.kind (spec.parent :: importer.compiledFile.toList)
  unresolved : importer.globSpec spelling parent = .error (.parentUnresolved parent) ↔
    importer.IsUnresolved parent
  unresolved_expand : (importer.expand spelling parent).outcome =
    .error (.parentUnresolved parent) ↔ importer.IsUnresolved parent
  faults : ∀ fault, importer.globSpec spelling parent = .error fault ∨
      (importer.expand spelling parent).outcome = .error fault →
    fault = .parentUnresolved parent ∨ ∃ cause, fault = .breach cause

theorem globSpec_eq_error (h : Glob.Accepts residual kind spelling) {fault : Fault} :
    importer.globSpec spelling parent = .error fault ↔
      importer.importingFile parent = .error fault := by
  rw [globSpec_eq_bind h]
  cases importer.importingFile parent <;> simp [Except.map]

theorem importingFile_eq_parentUnresolved_iff :
    importer.importingFile parent = .error (.parentUnresolved parent) ↔
      importer.IsUnresolved parent := by
  constructor
  · intro h
    rcases importingFile_eq_error h with ⟨hunresolved, -⟩ | ⟨-, cause, hcause⟩
    · exact hunresolved
    · cases hcause
  · rintro ⟨hrelative, hfind⟩
    unfold importingFile
    rw [if_neg (by simp [hrelative]), hfind]
    rfl

theorem expand_eq_error {fault : Fault}
    (h : (importer.expand spelling parent).outcome = .error fault) :
    importer.globSpec spelling parent = .error fault ∨ ∃ cause, fault = .breach cause := by
  cases hspec : importer.globSpec spelling parent with
  | error cause =>
      rw [expand_of_globSpec_error hspec] at h
      exact .inl (congrArg Except.error (Except.error.inj h))
  | ok spec =>
      rw [expand_outcome hspec] at h
      exact .inr (onlyBreaches_globbed importer _ _ _ fault h)

theorem followsParent_of_accepts (h : Glob.Accepts residual kind spelling) (parent : Text) :
    importer.FollowsParent residual kind spelling parent where
  spec spec := by
    rw [globSpec_eq_bind h, Fault.map_eq_ok_iff]
    constructor
    · rintro ⟨file, hfile, rfl⟩
      exact ⟨file, importingFile_eq_ok_iff.mp hfile, rfl⟩
    · rintro ⟨file, hfile, rfl⟩
      exact ⟨file, importingFile_eq_ok_iff.mpr hfile, rfl⟩
  listing spec hspec := expand_outcome hspec
  unresolved := (globSpec_eq_error h).trans importingFile_eq_parentUnresolved_iff
  unresolved_expand := by
    rw [← importingFile_eq_parentUnresolved_iff, ← globSpec_eq_error h]
    constructor
    · intro houtcome
      refine (expand_eq_error houtcome).resolve_right ?_
      rintro ⟨cause, hcause⟩
      cases hcause
    · intro hspec
      rw [expand_of_globSpec_error hspec]
      rfl
  faults fault hfault := by
    have hfile : importer.globSpec spelling parent = .error fault ∨
        ∃ cause, fault = .breach cause := hfault.elim .inl expand_eq_error
    rcases hfile with hspec | hbreach
    · rcases importingFile_eq_error ((globSpec_eq_error h).mp hspec) with ⟨-, hsame⟩ | ⟨-, hbreach⟩
      · exact .inl hsame
      · exact .inr hbreach
    · exact .inr hbreach

theorem imports_of_isGlobLike (h : Glob.IsGlobLike spelling) (parent : Text) :
    importer.imports spelling parent =
      ⟨(importer.expand spelling parent).outcome.bind importer.contents,
        (importer.expand spelling parent).recorded⟩ := by
  rw [imports, if_pos ((Glob.isGlob_iff spelling).mpr h)]

theorem imports_of_not_isGlobLike (h : ¬ Glob.IsGlobLike spelling) (parent : Text) :
    importer.imports spelling parent =
      ⟨((importer.resolve spelling (some parent)).map Option.toList).outcome.bind
          importer.contents,
        (importer.resolve spelling (some parent)).recorded⟩ := by
  rw [imports, if_neg (mt (Glob.isGlob_iff spelling).mp h)]
  rfl

end Importer

theorem Session.dependenciesOf_of_glob_error {session : Session} {spelling parent : Text}
    {request : Request}
    (hrequest : request = .globSpec spelling parent ∨ request = .expand spelling parent)
    {fault : Fault} (h : (session.perform request).2 = .error fault) (number : Nat) :
    (session.perform request).1.dependenciesOf number = session.dependenciesOf number := by
  have hnothing : session.resolved request = [] := by
    rcases hrequest with rfl | rfl
    · rfl
    · rw [resolved, h]
      rfl
  rw [dependenciesOf_perform, hnothing, ite_self, List.append_nil]

/--
Which spellings are glob imports, which of them are accepted, and with which
faults the others are refused.  The segments of a spelling decide whether it is
a glob import, and an import is expanded exactly then.  Accepted are the two
patterns, alone or after a directory without stars; all else is refused
whatever the importing file.  The only other fault is an importing file that is
relative and not found; and no fault changes dependencies.
-/
theorem Importer.expand_followsGrammar (importer : Importer) (spelling : Text) :
    (Glob.isGlob spelling = true ↔ Glob.IsGlobLike spelling) ∧
    (∀ parent,
      (Glob.IsGlobLike spelling → importer.imports spelling parent =
        ⟨(importer.expand spelling parent).outcome.bind importer.contents,
          (importer.expand spelling parent).recorded⟩) ∧
      (¬ Glob.IsGlobLike spelling → importer.imports spelling parent =
        ⟨((importer.resolve spelling (some parent)).map Option.toList).outcome.bind
            importer.contents,
          (importer.resolve spelling (some parent)).recorded⟩)) ∧
    (∀ residual kind, Glob.Accepts residual kind spelling →
      Glob.IsGlobLike spelling ∧
      (∀ other otherKind, Glob.Accepts other otherKind spelling →
        other = residual ∧ otherKind = kind) ∧
      ∀ parent, importer.FollowsParent residual kind spelling parent) ∧
    ((¬ ∃ residual kind, Glob.Accepts residual kind spelling) →
      ∃ cause, Glob.IsRefused spelling cause ∧ ∀ parent,
        importer.globSpec spelling parent = .error (.glob cause) ∧
          importer.expand spelling parent = .silent (.error (.glob cause))) ∧
    ∀ session : Session, ∀ request parent,
      request = .globSpec spelling parent ∨ request = .expand spelling parent →
        ∀ fault, (session.perform request).2 = .error fault → ∀ number,
          (session.perform request).1.dependenciesOf number = session.dependenciesOf number := by
  refine ⟨Glob.isGlob_iff spelling, fun parent => ?_, fun residual kind h => ?_, fun h => ?_, ?_⟩
  · exact ⟨fun hglob => imports_of_isGlobLike hglob parent,
      fun hplain => imports_of_not_isGlobLike hplain parent⟩
  · exact ⟨h.isGlobLike, fun _ _ hother => h.unique hother, followsParent_of_accepts h⟩
  · rcases Glob.parse_cases spelling with ⟨residual, kind, haccepts, -⟩ | ⟨cause, hrefused, hparse⟩
    · exact absurd ⟨residual, kind, haccepts⟩ h
    · have hspec : ∀ parent, importer.globSpec spelling parent = .error (.glob cause) :=
        fun _ => globSpec_of_parse_error hparse
      exact ⟨cause, hrefused, fun parent => ⟨hspec parent, expand_of_globSpec_error (hspec parent)⟩⟩
  · intro session request parent hrequest fault hfault number
    exact Session.dependenciesOf_of_glob_error hrequest hfault number

example :
    Glob.isGlob "a/**/b".toList = true ∧
      (Glob.parse "a/**/b".toList).toOption = none ∧
      (Glob.parse "/**/*".toList).toOption = some ([], .recursive) ∧
      (Glob.parse "//*".toList).toOption = some (['/'], .singleLevel) := by
  decide

end Stylesheets
