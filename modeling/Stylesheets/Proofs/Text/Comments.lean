import Stylesheets.Text.Basic

/-!
# Comments of bracketed syntax

A slash and a star open a comment, and the next star and slash after both of
them close it.  Read one character at a time, a text is in one of four states;
a line feed forgets everything but whether a comment is open.
-/

namespace Stylesheets.Text

/-- Whether a comment is open behind a text, if one is or none is before it. -/
def leavesOpen : Bool → Text → Bool
  | inside, [] => inside
  | false, '/' :: '*' :: rest => leavesOpen true rest
  | true, '*' :: '/' :: rest => leavesOpen false rest
  | inside, _ :: rest => leavesOpen inside rest

/-- Outside a comment and behind a slash there, inside a comment and behind a star there. -/
inductive CommentState where
  | outside
  | slash
  | inside
  | star
  deriving DecidableEq, Repr

namespace CommentState

def next : CommentState → Char → CommentState
  | outside, c => if c = '/' then slash else outside
  | slash, c => if c = '*' then inside else if c = '/' then slash else outside
  | inside, c => if c = '*' then star else inside
  | star, c => if c = '/' then outside else if c = '*' then star else inside

def run (state : CommentState) (text : Text) : CommentState := text.foldl next state

def isOpen : CommentState → Bool
  | inside => true
  | star => true
  | _ => false

/-- The state in which no character of an opening or an end has been read. -/
def ofOpen : Bool → CommentState
  | true => inside
  | false => outside

variable {state : CommentState}

theorem run_append (state : CommentState) (first second : Text) :
    run state (first ++ second) = run (run state first) second :=
  List.foldl_append

@[simp] theorem isOpen_ofOpen (isOpen : Bool) : (ofOpen isOpen).isOpen = isOpen := by
  cases isOpen <;> rfl

theorem isOpen_next_ofOpen (isOpen : Bool) (c : Char) :
    ((ofOpen isOpen).next c).isOpen = isOpen := by
  cases isOpen <;> simp only [ofOpen, next] <;> split <;> rfl

theorem next_lineFeed (state : CommentState) : state.next '\n' = ofOpen state.isOpen := by
  cases state <;> rfl

theorem next_eq_slash_iff {c : Char} :
    state.next c = slash ↔ c = '/' ∧ state.isOpen = false := by
  cases state <;> simp only [next, isOpen] <;> grind

theorem run_eq_slash_iff {text : Text} :
    run outside text = slash ↔
      ∃ before, text = before ++ ['/'] ∧ (run outside before).isOpen = false := by
  rcases text.eq_nil_or_concat with rfl | ⟨before, c, rfl⟩
  · simp [run]
  · have hrun : run outside (before ++ [c]) = (run outside before).next c :=
      run_append outside before [c]
    rw [List.concat_eq_append, hrun, next_eq_slash_iff]
    constructor
    · rintro ⟨rfl, hopen⟩
      exact ⟨before, rfl, hopen⟩
    · rintro ⟨held, hheld, hopen⟩
      obtain ⟨rfl, hlast⟩ := List.append_inj' hheld rfl
      exact ⟨(List.cons.inj hlast).1, hopen⟩

/-- States count as the same before a text if they become the same with its first character. -/
theorem isOpen_run_congr {first second : CommentState} {text : Text}
    (hopen : first.isOpen = second.isOpen)
    (hnext : ∀ c ∈ text.head?, first.next c = second.next c) :
    (run first text).isOpen = (run second text).isOpen := by
  cases text with
  | nil => exact hopen
  | cons c rest => exact congrArg (fun state => (run state rest).isOpen) (hnext c rfl)

theorem isOpen_end (state : CommentState) :
    (state.run "*/\n".toList).isOpen = true ↔ state = slash := by
  cases state <;> decide

end CommentState

open CommentState

theorem leavesOpen_eq_run (inside : Bool) (text : Text) :
    leavesOpen inside text = (run (ofOpen inside) text).isOpen := by
  fun_induction leavesOpen inside text with
  | case1 inside => cases inside <;> rfl
  | case2 rest ih => exact ih
  | case3 rest ih => exact ih
  | case4 inside c rest hopening hend ih =>
      rw [ih]
      refine @isOpen_run_congr _ ((ofOpen inside).next c) _ ?_ fun d hd => ?_
      · rw [isOpen_ofOpen, isOpen_next_ofOpen]
      · -- The first character of a pair is as good as forgotten, as the second does not follow.
        obtain ⟨more, rfl⟩ := List.head?_eq_some_iff.mp (Option.mem_def.mp hd)
        cases inside with
        | false =>
            by_cases hslash : c = '/'
            · have hstar : d ≠ '*' := fun hd => hopening more rfl hslash (hd ▸ rfl)
              simp [ofOpen, next, hslash, hstar]
            · simp [ofOpen, next, hslash]
        | true =>
            by_cases hstar : c = '*'
            · have hslash : d ≠ '/' := fun hd => hend more rfl hstar (hd ▸ rfl)
              simp [ofOpen, next, hslash, hstar]
            · simp [ofOpen, next, hstar]

theorem leavesOpen_append_lineFeed (inside : Bool) (line rest : Text) :
    leavesOpen inside (line ++ '\n' :: rest) = leavesOpen (leavesOpen inside line) rest := by
  have hrun : run (ofOpen inside) (line ++ '\n' :: rest) =
      run (ofOpen (run (ofOpen inside) line).isOpen) rest := by
    rw [run_append, ← next_lineFeed]
    rfl
  rw [leavesOpen_eq_run, hrun, leavesOpen_eq_run, leavesOpen_eq_run]

theorem leavesOpen_end_iff {text : Text} :
    leavesOpen false (text ++ "*/\n".toList) = true ↔
      ∃ before, text = before ++ ['/'] ∧ leavesOpen false before = false := by
  simp only [leavesOpen_eq_run, run_append, isOpen_end]
  exact run_eq_slash_iff

end Stylesheets.Text
