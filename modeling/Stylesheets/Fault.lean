import Stylesheets.Path.Basic
import Stylesheets.Value.Display
import Stylesheets.Indented.Conversion

/-!
# Faults

What can go wrong, by cause.  Four families belong to this library and have a
message; the last one holds the breaches of an operation's own contract, which
speak for themselves.
-/

namespace Stylesheets

inductive SettingsFault where
  | unknownNames (names : List Text)
  | rootsNotList (kind : Text)
  | variablesNotTable
  | patternsRejected (patterns : List Value)
  | fileMissing (path : Path)
  | fileUnreadable (path : Path)

inductive GlobFault where
  | unsupportedPattern (pattern : Text)
  | notGlob (spelling : Text)
  | wildcardInside (spelling : Text)

inductive EvaluationFault where
  | unreadable (path : Path)
  | notText (path : Path)
  | templateSyntax (path : Path)
  | templateFailure (path : Path)
  | indentation (cause : Indented.Inconsistency)

inductive Breach where
  | wrongKind
  | invalidValue
  | offsetOutside
  | missingKey
  | missingMember
  | notProvided
  | notText
  | linkLoop
  | system
  deriving DecidableEq, Repr

inductive Fault where
  | settings (cause : SettingsFault)
  | glob (cause : GlobFault)
  | parentUnresolved (parent : Text)
  | evaluation (cause : EvaluationFault)
  | importUnresolved (spelling : Text)
  | breach (cause : Breach)

namespace SettingsFault

def message : SettingsFault → Text
  | unknownNames names =>
    "unknown settings: ".toList ++ Text.bracketed (names.map Text.quoted)
  | rootsNotList kind => "'roots' must be a list of directories, got ".toList ++ kind
  | variablesNotTable => "'template_vars' must be a table".toList
  | patternsRejected patterns =>
    "error compiling exclude patterns ".toList ++ (Value.list patterns).display
  | fileMissing path => "config file not found: ".toList ++ path.text
  | fileUnreadable path => "could not read config file ".toList ++ path.text

end SettingsFault

namespace GlobFault

private def unsupported (subject reason : Text) : Text :=
  "unsupported glob pattern '".toList ++ subject ++ "': ".toList ++ reason

def message : GlobFault → Text
  | unsupportedPattern pattern =>
    unsupported pattern "only '*' and '**/*' are allowed".toList
  | notGlob spelling => '\'' :: spelling ++ "' is not a glob import".toList
  | wildcardInside spelling =>
    unsupported spelling "wildcards are only allowed in the last segment".toList

end GlobFault

namespace EvaluationFault

def message : EvaluationFault → Text
  | unreadable path => "failed to read ".toList ++ path.text
  | notText path => path.text ++ " is not valid utf-8".toList
  | templateSyntax path => "failed to compile template ".toList ++ path.text
  | templateFailure path => "failed to render template ".toList ++ path.text
  | indentation cause =>
    "inconsistent indentation on line ".toList ++ Text.ofNat cause.number ++
      ": ".toList ++ Text.quoted cause.text

end EvaluationFault

namespace Fault

def message? : Fault → Option Text
  | settings cause => some cause.message
  | glob cause => some cause.message
  | parentUnresolved parent =>
    some ("could not resolve parent file '".toList ++ parent ++ "' for glob import".toList)
  | evaluation cause => some cause.message
  | importUnresolved spelling =>
    some ("File to import not found or unreadable: ".toList ++ spelling)
  | breach _ => none

/-! ## Outcomes of steps in sequence -/

theorem bind_eq_ok_iff {α β : Type} {first : Except Fault α} {next : α → Except Fault β}
    {result : β} :
    (first >>= next) = .ok result ↔ ∃ value, first = .ok value ∧ next value = .ok result := by
  cases first <;> simp [bind, Except.bind]

theorem bind_eq_error_iff {α β : Type} {first : Except Fault α} {next : α → Except Fault β}
    {fault : Fault} :
    (first >>= next) = .error fault ↔
      first = .error fault ∨ ∃ value, first = .ok value ∧ next value = .error fault := by
  cases first <;> simp [bind, Except.bind]

theorem map_eq_ok_iff {α β : Type} {first : Except Fault α} {change : α → β} {result : β} :
    first.map change = .ok result ↔ ∃ value, first = .ok value ∧ change value = result := by
  cases first <;> simp [Except.map]

theorem mapM_eq_ok_iff {α β : Type} {next : α → Except Fault β} {values : List α}
    {results : List β} : values.mapM next = .ok results ↔ values.map next = results.map .ok := by
  induction values generalizing results with
  | nil => cases results <;> simp [pure, Except.pure]
  | cons value rest ih =>
      rw [List.mapM_cons, bind_eq_ok_iff, List.map_cons, eq_comm, List.map_eq_cons_iff]
      constructor
      · rintro ⟨first, hfirst, hothers⟩
        obtain ⟨others, hrest, hresults⟩ := bind_eq_ok_iff.mp hothers
        exact ⟨first, others, (Except.ok.inj hresults).symm, hfirst.symm, (ih.mp hrest).symm⟩
      · rintro ⟨first, others, rfl, hfirst, hothers⟩
        exact ⟨first, hfirst.symm, bind_eq_ok_iff.mpr ⟨others, ih.mpr hothers.symm, rfl⟩⟩

theorem exists_of_mapM_eq_error {α β : Type} {next : α → Except Fault β} {values : List α}
    {fault : Fault} (h : values.mapM next = .error fault) :
    ∃ value ∈ values, next value = .error fault := by
  induction values with
  | nil => cases h
  | cons value rest ih =>
      rw [List.mapM_cons] at h
      rcases bind_eq_error_iff.mp h with hvalue | ⟨first, -, hothers⟩
      · exact ⟨value, List.mem_cons_self, hvalue⟩
      · rcases bind_eq_error_iff.mp hothers with hrest | ⟨others, -, hpure⟩
        · obtain ⟨later, hmem, hlater⟩ := ih hrest
          exact ⟨later, List.mem_cons_of_mem _ hmem, hlater⟩
        · cases hpure

variable {α β : Type}

def OnlyBreaches (outcome : Except Fault α) : Prop :=
  ∀ fault, outcome = .error fault → ∃ cause, fault = .breach cause

theorem onlyBreaches_ok (value : α) : OnlyBreaches (.ok value) := by
  intro fault h
  cases h

theorem onlyBreaches_breach (cause : Breach) :
    OnlyBreaches (.error (.breach cause) : Except Fault α) := by
  intro fault h
  exact ⟨cause, (Except.error.inj h).symm⟩

theorem OnlyBreaches.bind {first : Except Fault α} {next : α → Except Fault β}
    (hfirst : OnlyBreaches first)
    (hnext : ∀ value, first = .ok value → OnlyBreaches (next value)) :
    OnlyBreaches (first >>= next) := by
  cases first with
  | error fault =>
      obtain ⟨cause, rfl⟩ := hfirst fault rfl
      exact onlyBreaches_breach cause
  | ok value => exact hnext value rfl

theorem OnlyBreaches.map {outcome : Except Fault α} (h : OnlyBreaches outcome)
    (change : α → β) : OnlyBreaches (outcome.map change) := by
  cases outcome with
  | error fault =>
      obtain ⟨cause, rfl⟩ := h fault rfl
      exact onlyBreaches_breach cause
  | ok value => exact onlyBreaches_ok (change value)

theorem OnlyBreaches.mapM {next : α → Except Fault β} (h : ∀ value, OnlyBreaches (next value))
    (values : List α) : OnlyBreaches (values.mapM next) := by
  induction values with
  | nil => exact onlyBreaches_ok []
  | cons value rest ih =>
      rw [List.mapM_cons]
      refine (h value).bind fun result _ => ih.bind fun results _ => ?_
      exact onlyBreaches_ok (result :: results)

end Fault

end Stylesheets
