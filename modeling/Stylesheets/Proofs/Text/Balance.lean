import Mathlib.Algebra.GroupWithZero.Nat
import Mathlib.Algebra.Order.Group.Int
import Mathlib.Tactic.Tauto
import Stylesheets.Proofs.Text.Lines
import Stylesheets.Proofs.Text.Trimming

/-!
# Balance of braces

How deep a text leads is the number of its opening braces less that of its
closing ones.  A text stays open at some depth when no beginning of it closes
more blocks than are open there.  Neither trimming a text nor dividing it into
lines loses a character that is not white space.
-/

namespace Stylesheets.Text

def openBrace : Char := '\x7b'

def closeBrace : Char := '\x7d'

def IsBrace (c : Char) : Prop := c = openBrace ∨ c = closeBrace

def IsBraceFree (text : Text) : Prop := openBrace ∉ text ∧ closeBrace ∉ text

instance (text : Text) : Decidable text.IsBraceFree :=
  inferInstanceAs (Decidable (_ ∧ _))

def balance (text : Text) : Int := text.count openBrace - text.count closeBrace

/-- No beginning of the text closes more blocks than are open. -/
def StaysOpen (depth : Int) (text : Text) : Prop :=
  ∀ start : Text, start <+: text → 0 ≤ depth + start.balance

section Counting

variable {c : Char}

theorem IsBrace.isBlank_eq_false (h : IsBrace c) : isBlank c = false := by
  rcases h with rfl | rfl <;> rfl

theorem beq_eq_false_of_isBlank (hc : isBlank c = false) {d : Char} (hd : isBlank d = true) :
    (d == c) = false := by
  rw [beq_eq_false_iff_ne]
  rintro rfl
  exact Bool.false_ne_true (hc.symm.trans hd)

theorem count_of_blank (hc : isBlank c = false) {text : Text}
    (h : ∀ d ∈ text, isBlank d = true) : text.count c = 0 := by
  refine List.count_eq_zero_of_not_mem fun hmem => ?_
  exact Bool.false_ne_true (hc.symm.trans (h c hmem))

theorem count_trimStart (hc : isBlank c = false) (text : Text) :
    text.trimStart.count c = text.count c := by
  have hstart : (text.takeWhile isBlank).count c = 0 :=
    count_of_blank hc fun _ => List.mem_takeWhile_imp
  rw [trimStart, ← Nat.zero_add ((text.dropWhile isBlank).count c), ← hstart,
    ← List.count_append, List.takeWhile_append_dropWhile]

theorem count_trim (hc : isBlank c = false) (text : Text) :
    text.trim.count c = text.count c := by
  obtain ⟨before, after, hbefore, hafter, htext⟩ := exists_eq_append_trim text
  have hcount : text.count c = (before ++ text.trim ++ after).count c := by rw [← htext]
  rw [hcount, List.count_append, List.count_append, count_of_blank hc hbefore,
    count_of_blank hc hafter, Nat.zero_add, Nat.add_zero]

theorem isBlank_of_isLineBreak (h : isLineBreak c = true) : isBlank c = true := by
  simp only [isLineBreak, isBlank, Bool.or_eq_true, Bool.and_eq_true, decide_eq_true_eq,
    beq_iff_eq] at h ⊢
  omega

theorem sum_count_lines (hc : isBlank c = false) (text : Text) :
    (text.lines.map (List.count c)).sum = text.count c := by
  fun_induction lines text with
  | case1 => rfl
  | case2 rest ih =>
      have hreturn : ('\r' == c) = false := beq_eq_false_of_isBlank hc rfl
      have hfeed : ('\n' == c) = false := beq_eq_false_of_isBlank hc rfl
      simpa [List.count_cons, hreturn, hfeed] using ih
  | case3 d rest _ hbreak ih =>
      have hother : (d == c) = false :=
        beq_eq_false_of_isBlank hc (isBlank_of_isLineBreak hbreak)
      simpa [List.count_cons, hother] using ih
  | case4 d rest _ _ hlines ih =>
      rw [hlines] at ih
      simp [List.count_cons, ← ih]
  | case5 d rest _ _ line later hlines ih =>
      rw [hlines] at ih
      simp only [List.map_cons, List.sum_cons, List.count_cons] at ih ⊢
      omega

end Counting

variable {text first second : Text} {depth : Int}

@[simp] theorem balance_nil : balance [] = 0 := rfl

@[simp] theorem balance_append (first second : Text) :
    (first ++ second).balance = first.balance + second.balance := by
  simp only [balance, List.count_append]
  omega

theorem isBraceFree_iff_count :
    text.IsBraceFree ↔ ∀ c, IsBrace c → text.count c = 0 := by
  simp [IsBraceFree, IsBrace, List.count_eq_zero]

theorem IsBraceFree.count_eq_zero (h : text.IsBraceFree) {c : Char} (hc : IsBrace c) :
    text.count c = 0 :=
  isBraceFree_iff_count.mp h c hc

theorem IsBraceFree.count_append (h : first.IsBraceFree) {c : Char} (hc : IsBrace c)
    (second : Text) : (first ++ second).count c = second.count c := by
  rw [List.count_append, h.count_eq_zero hc, Nat.zero_add]

theorem IsBraceFree.balance_eq_zero (h : text.IsBraceFree) : text.balance = 0 := by
  rw [balance, h.count_eq_zero (.inl rfl), h.count_eq_zero (.inr rfl)]
  rfl

theorem isBraceFree_append :
    (first ++ second).IsBraceFree ↔ first.IsBraceFree ∧ second.IsBraceFree := by
  simp only [IsBraceFree, List.mem_append, not_or]
  tauto

theorem StaysOpen.nonneg (h : StaysOpen depth text) : 0 ≤ depth := by
  simpa using h [] List.nil_prefix

theorem staysOpen_append :
    StaysOpen depth (first ++ second) ↔
      StaysOpen depth first ∧ StaysOpen (depth + first.balance) second := by
  constructor
  · intro h
    refine ⟨fun start hstart => h start (hstart.trans (List.prefix_append _ _)), ?_⟩
    intro start hstart
    have hwhole := h (first ++ start) ((List.prefix_append_right_inj first).mpr hstart)
    rwa [balance_append, ← add_assoc] at hwhole
  · rintro ⟨hfirst, hsecond⟩ start hstart
    rcases List.prefix_or_prefix_of_prefix hstart (List.prefix_append first second) with
      hinside | ⟨more, rfl⟩
    · exact hfirst start hinside
    · have hmore := hsecond more ((List.prefix_append_right_inj first).mp hstart)
      rwa [balance_append, ← add_assoc]

theorem IsBraceFree.staysOpen (h : text.IsBraceFree) (hdepth : 0 ≤ depth) :
    StaysOpen depth text := by
  intro start hstart
  have hfree : IsBraceFree start :=
    ⟨fun hmem => h.1 (hstart.subset hmem), fun hmem => h.2 (hstart.subset hmem)⟩
  rw [hfree.balance_eq_zero, add_zero]
  exact hdepth

theorem IsBraceFree.staysOpen_append (h : first.IsBraceFree) :
    StaysOpen depth (first ++ second) ↔ StaysOpen depth second := by
  rw [Text.staysOpen_append, h.balance_eq_zero, add_zero]
  exact and_iff_right_of_imp fun hsecond => h.staysOpen hsecond.nonneg

theorem IsBraceFree.staysOpen_of_append (h : second.IsBraceFree) :
    StaysOpen depth (first ++ second) ↔ StaysOpen depth first := by
  rw [Text.staysOpen_append]
  exact and_iff_left_of_imp fun hfirst => h.staysOpen (hfirst first List.prefix_rfl)

theorem staysOpen_openBrace (hdepth : 0 ≤ depth) : StaysOpen depth [openBrace] := by
  intro start hstart
  rcases List.prefix_cons_iff.mp hstart with rfl | ⟨rest, rfl, hrest⟩
  · simpa using hdepth
  · rw [List.prefix_nil.mp hrest]
    exact hdepth.trans (le_add_of_nonneg_right (by decide))

theorem staysOpen_closeBrace (hdepth : 0 < depth) : StaysOpen depth [closeBrace] := by
  intro start hstart
  rcases List.prefix_cons_iff.mp hstart with rfl | ⟨rest, rfl, hrest⟩
  · simpa using hdepth.le
  · rw [List.prefix_nil.mp hrest]
    have hclose : balance [closeBrace] = -1 := rfl
    omega

end Stylesheets.Text
