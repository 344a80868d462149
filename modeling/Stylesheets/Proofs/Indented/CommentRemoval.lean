import Stylesheets.Proofs.Indented.Replacement
import Stylesheets.Proofs.Text.Lines

/-!
# Texts without comments

A comment is written where it stands and has no influence on what is written
for the code lines.  Without its comments a text is laid out as before, but for
the lines of these comments, or refused for the same code line.
-/

namespace Stylesheets.Indented

def startsComment (raw : Text) : Bool := (lineOf raw 0).opensComment

/-- Whether a line belongs to a comment that an earlier line opens: it is blank or deeper. -/
def staysInComment (opening raw : Text) : Bool :=
  (lineOf raw 0).continuesComment (indentationOf opening)

def withoutComments : List Text → List Text
  | [] => []
  | raw :: rest =>
    if startsComment raw then withoutComments (rest.dropWhile (staysInComment raw))
    else raw :: withoutComments rest
termination_by raws => raws.length
decreasing_by
  · exact Nat.lt_succ_of_le (List.dropWhile_sublist _).length_le
  · simp

/-- What a line says wherever it stands. -/
def Line.content (line : Line) : Nat × Text := (line.indent, line.text)

theorem mem_of_mem_withoutComments {raws : List Text} {raw : Text}
    (h : raw ∈ withoutComments raws) : raw ∈ raws := by
  fun_induction withoutComments raws with
  | case1 => exact h
  | case2 opening rest hopens ih =>
      exact List.mem_cons_of_mem _ ((List.dropWhile_sublist _).subset (ih h))
  | case3 first rest hopens ih =>
      rcases List.mem_cons.mp h with rfl | hrest
      · exact List.mem_cons_self
      · exact List.mem_cons_of_mem _ (ih hrest)

theorem linesFrom_cons (start : Nat) (raw : Text) (rest : List Text) :
    linesFrom start (raw :: rest) = lineOf raw start :: linesFrom (start + 1) rest := rfl

theorem dropWhile_linesFrom (start : Nat) (opening : Text) (raws : List Text) :
    ∃ later, (linesFrom start raws).dropWhile (Line.continuesComment (indentationOf opening)) =
      linesFrom later (raws.dropWhile (staysInComment opening)) := by
  induction raws generalizing start with
  | nil => exact ⟨start, rfl⟩
  | cons raw rest ih =>
      have hsame : (lineOf raw start).continuesComment (indentationOf opening) =
          staysInComment opening raw := rfl
      rw [linesFrom_cons, List.dropWhile_cons, List.dropWhile_cons, hsame]
      split
      · exact ih (start + 1)
      · exact ⟨start, rfl⟩

theorem scan_withoutComments (start other : Nat) (raws : List Text) :
    ∃ lines : List Line, scan (linesFrom other (withoutComments raws)) = lines.map .code ∧
      lines.map Line.content = (codeLines (scan (linesFrom start raws))).map Line.content := by
  fun_induction withoutComments raws generalizing start other with
  | case1 => exact ⟨[], by simp [linesFrom, scan], by simp [linesFrom, scan, codeLines]⟩
  | case2 raw rest hopens ih =>
      have hline : (lineOf raw start).opensComment = true := hopens
      have hblank : (lineOf raw start).isBlank = false := by
        rw [← Bool.not_eq_true, Line.isBlank, List.isEmpty_iff]
        intro hempty
        simp [Line.opensComment, hempty] at hline
      obtain ⟨later, hlater⟩ := dropWhile_linesFrom (start + 1) raw rest
      rw [linesFrom_cons, scan_cons_comment hblank hline, codeLines_cons_comment,
        show (lineOf raw start).indent = indentationOf raw from rfl, hlater]
      exact ih later other
  | case3 raw rest hopens ih =>
      obtain ⟨lines, hlines, hcontent⟩ := ih (start + 1) (other + 1)
      rw [linesFrom_cons, linesFrom_cons]
      have hsame : (lineOf raw other).isBlank = (lineOf raw start).isBlank := rfl
      cases hblank : (lineOf raw start).isBlank with
      | true =>
          rw [scan, if_pos (hsame.trans hblank), scan, if_pos hblank]
          exact ⟨lines, hlines, hcontent⟩
      | false =>
          have hline : (lineOf raw start).opensComment = false := Bool.eq_false_iff.mpr hopens
          rw [scan_cons_code (hsame.trans hblank) hline, scan_cons_code hblank hline, hlines,
            codeLines_cons_code]
          exact ⟨lineOf raw other :: lines, rfl, by simp [hcontent, Line.content, lineOf]⟩

/-! ## Laying out -/

def withoutCommentLines (output : List OutputLine) : List OutputLine :=
  output.filter fun line => !line.isComment

theorem withoutCommentLines_append (first second : List OutputLine) :
    withoutCommentLines (first ++ second) =
      withoutCommentLines first ++ withoutCommentLines second :=
  List.filter_append _ _

@[simp] theorem withoutCommentLines_cons_code (line : CodeOutput) (rest : List OutputLine) :
    withoutCommentLines (.code line :: rest) = .code line :: withoutCommentLines rest := rfl

@[simp] theorem withoutCommentLines_closings (fromDepth toDepth : Nat) :
    withoutCommentLines (closings fromDepth toDepth) = closings fromDepth toDepth := by
  refine List.filter_eq_self.mpr fun line hline => ?_
  obtain ⟨depth, -, rfl⟩ := List.mem_map.mp hline
  rfl

@[simp] theorem withoutCommentLines_comments (depth : Nat) (texts : List Text) :
    withoutCommentLines (texts.map (.comment depth)) = [] := by
  simp [withoutCommentLines, OutputLine.isComment]

theorem goesDeeper_eq {items others : List Item}
    (h : (codeLines others).map Line.content = (codeLines items).map Line.content)
    (indent : Nat) : goesDeeper indent others = goesDeeper indent items := by
  have hindents : (codeLines others).map Line.indent = (codeLines items).map Line.indent := by
    simpa [Function.comp_def, Line.content] using congrArg (List.map Prod.fst) h
  rw [goesDeeper, goesDeeper, nextIndent?_eq_head?, nextIndent?_eq_head?, ← List.head?_map,
    ← List.head?_map, hindents]

@[simp] theorem codeLines_map_code (lines : List Line) : codeLines (lines.map .code) = lines := by
  induction lines with
  | nil => rfl
  | cons line rest ih => rw [List.map_cons, codeLines_cons_code, ih]

theorem layOut_withoutComments {items : List Item} {lines : List Line}
    (h : lines.map Line.content = (codeLines items).map Line.content) (nesting : Nesting) :
    (∃ output, layOut nesting items = .ok output ∧
        layOut nesting (lines.map .code) = .ok (withoutCommentLines output)) ∨
      ∃ (index : Nat) (line other : Line),
        (codeLines items)[index]? = some line ∧ lines[index]? = some other ∧
          layOut nesting items = .error ⟨line.number, line.text⟩ ∧
          layOut nesting (lines.map .code) = .error ⟨other.number, other.text⟩ := by
  induction items generalizing lines nesting with
  | nil =>
      obtain rfl : lines = [] := by simpa [codeLines] using h
      exact .inl ⟨_, rfl, by rw [withoutCommentLines_closings]; rfl⟩
  | cons item rest ih =>
      cases item with
      | comment group =>
          rcases ih h nesting with
            ⟨output, hok, hother⟩ | ⟨index, line, other, hline, hget, hfault, hother⟩
          · refine .inl ⟨group.written.map (.comment nesting.depth) ++ output, ?_, ?_⟩
            · simp [layOut, hok, bind, Except.bind, pure, Except.pure]
            · rw [hother, withoutCommentLines_append, withoutCommentLines_comments,
                List.nil_append]
          · refine .inr ⟨index, line, other, hline, hget, ?_, hother⟩
            simp [layOut, hfault, bind, Except.bind]
      | code line =>
          rw [codeLines_cons_code, List.map_cons] at h
          obtain ⟨other, others, rfl, hsame, hothers⟩ := List.map_eq_cons_iff.mp h
          obtain ⟨hindent, htext⟩ := Prod.mk.inj hsame
          have hdeeper : goesDeeper line.indent (others.map .code) = goesDeeper line.indent rest :=
            goesDeeper_eq (by rw [codeLines_map_code, hothers]) line.indent
          have houtput : ∀ depth deeper,
              codeOutput depth other deeper = codeOutput depth line deeper := by
            intro depth deeper
            rw [codeOutput, codeOutput, htext]
          simp only [List.map_cons, layOut, hindent, hdeeper, houtput]
          cases (nesting.settle line.indent).place? line.indent with
          | none => exact .inr ⟨0, line, other, rfl, rfl, rfl, rfl⟩
          | some placed =>
              simp only
              rcases ih hothers (if (codeOutput placed.depth line
                  (goesDeeper line.indent rest)).ending = .opensBlock
                then placed.opening line.indent else placed) with
                ⟨output, hok, hother⟩ |
                ⟨index, start, otherStart, hstart, hget, hfault, hother⟩
              · refine .inl ⟨_, by rw [hok]; rfl, ?_⟩
                rw [hother, withoutCommentLines_append, withoutCommentLines_closings,
                  withoutCommentLines_cons_code]
                rfl
              · exact .inr ⟨index + 1, start, otherStart, hstart, hget, by rw [hfault]; rfl,
                  by rw [hother]; rfl⟩

/--
Comments have no influence on the code.  A text and a text of its lines without
the comments are both converted, and the outputs are the same but for the lines
written for comments; or both are refused, for the same code line.
-/
theorem convert_withoutComments (text : Text) :
    (Text.ofLines (withoutComments text.lines)).lines = withoutComments text.lines ∧
      ∀ other : Text, other.lines = withoutComments text.lines →
        (codeLinesOf other).map Line.content = (codeLinesOf text).map Line.content ∧
          ((∃ output, layOut .empty (scan (linesOf text)) = .ok output ∧
              convert text = .ok (outputText output) ∧
              convert other = .ok (outputText (withoutCommentLines output))) ∨
            ∃ (index : Nat) (line otherLine : Line),
              (codeLinesOf text)[index]? = some line ∧
                (codeLinesOf other)[index]? = some otherLine ∧
                convert text = .error ⟨line.number, line.text⟩ ∧
                convert other = .error ⟨otherLine.number, otherLine.text⟩) := by
  constructor
  · exact Text.lines_ofLines fun raw hraw =>
      Text.isLine_of_mem_lines (mem_of_mem_withoutComments hraw)
  · intro other hother
    obtain ⟨lines, hscan, hcontent⟩ := scan_withoutComments 0 0 text.lines
    have hscanOther : scan (linesOf other) = lines.map .code := by
      rw [← hscan, ← hother]
      rfl
    have hlines : codeLinesOf other = lines := by
      rw [codeLinesOf, hscanOther, codeLines_map_code]
    refine ⟨by rw [hlines]; exact hcontent, ?_⟩
    rcases layOut_withoutComments hcontent .empty with
      ⟨output, hok, hwithout⟩ | ⟨index, line, otherLine, hline, hget, hfault, hwithout⟩
    · refine .inl ⟨output, hok, congrArg (Except.map outputText) hok, ?_⟩
      rw [convert, hscanOther, hwithout]
      rfl
    · refine .inr ⟨index, line, otherLine, hline, by rw [hlines, hget],
        congrArg (Except.map outputText) hfault, ?_⟩
      rw [convert, hscanOther, hwithout]
      rfl

def remarkedSheet : Text :=
  "// one\n\n 1\n.a\n      /* two\n\n        c: d\n  e: f // g\n   //\n    h\n  i: j\n//\n.k".toList

def plainSheet : Text := ".a\n  e: f // g\n  i: j\n.k".toList

theorem convert_remarkedSheet :
    plainSheet.lines = withoutComments remarkedSheet.lines ∧
      (codeLinesOf plainSheet).map Line.content = (codeLinesOf remarkedSheet).map Line.content := by
  have hlines : plainSheet.lines = withoutComments remarkedSheet.lines := by decide +kernel
  exact ⟨hlines, ((convert_withoutComments remarkedSheet).2 plainSheet hlines).1⟩

end Stylesheets.Indented
