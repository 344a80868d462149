import Stylesheets.Proofs.Indented.Braces
import Stylesheets.Proofs.Text.Comments

/-!
# Ends of block comments

What is written for a block comment ends with the end of a comment, its own or
one that is added.  This closes the comment unless its star is the one that
opens it, so that code after the comment is not taken for a part of it.
-/

namespace Stylesheets.Indented

open Text (leavesOpen)

theorem not_isSilent_of_block {group : CommentGroup} (h : "/*".toList <+: group.opening) :
    group.isSilent = false := by
  obtain ⟨rest, hrest⟩ := h
  rw [CommentGroup.isSilent, ← hrest]
  rfl

theorem isSuffix_marked {mark line ending : Text} (hempty : ending ≠ []) (h : ending <:+ line) :
    ending <:+ CommentGroup.marked mark line := by
  have hline : line ≠ [] := by
    rintro rfl
    exact hempty (List.suffix_nil.mp h)
  rw [CommentGroup.marked, if_neg (mt List.isEmpty_iff.mp hline)]
  exact h.trans ((List.suffix_cons _ _).trans (List.suffix_append _ _))

theorem exists_last_written {group : CommentGroup} (h : "/*".toList <+: group.opening) :
    ∃ lines last, group.written = lines ++ [last] ∧ "*/".toList <:+ last := by
  rw [CommentGroup.written, if_neg (by simp [not_isSilent_of_block h])]
  cases hclosed : group.isClosed with
  | false => exact ⟨_, " */".toList, rfl, by decide⟩
  | true =>
      have hlast : "*/".toList <:+ group.lastLine := List.isSuffixOf_iff_suffix.mp hclosed
      rw [if_pos rfl, List.append_nil]
      rcases group.continuation.eq_nil_or_concat with hnone | ⟨lines, last, hlines⟩
      · rw [CommentGroup.lastLine, hnone] at hlast
        exact ⟨[], group.opening, by rw [hnone]; rfl, hlast⟩
      · rw [List.concat_eq_append] at hlines
        refine ⟨group.opening :: lines.map (CommentGroup.marked " *".toList),
          CommentGroup.marked " *".toList last, by simp [hlines], isSuffix_marked (by simp) ?_⟩
        simpa [CommentGroup.lastLine, hlines] using hlast

theorem exists_text_written {group : CommentGroup} (h : "/*".toList <+: group.opening)
    (depth : Nat) :
    ∃ start, outputText (group.written.map (.comment depth)) = start ++ "*/\n".toList := by
  obtain ⟨lines, last, hwritten, more, hlast⟩ := exists_last_written h
  refine ⟨outputText (lines.map (.comment depth)) ++ padding depth ++ more, ?_⟩
  rw [hwritten, List.map_append, outputText_append, ← hlast]
  simp [outputText, OutputLine.text]

def commentTexts (output : List OutputLine) : List Text :=
  output.filterMap fun
    | .comment _ text => some text
    | _ => none

def writtenTexts (items : List Item) : List Text :=
  items.flatMap fun
    | .comment group => group.written
    | .code _ => []

theorem commentTexts_append (first second : List OutputLine) :
    commentTexts (first ++ second) = commentTexts first ++ commentTexts second :=
  List.filterMap_append

@[simp] theorem commentTexts_cons_code (line : CodeOutput) (rest : List OutputLine) :
    commentTexts (.code line :: rest) = commentTexts rest := rfl

@[simp] theorem commentTexts_closings (fromDepth toDepth : Nat) :
    commentTexts (closings fromDepth toDepth) = [] := by
  simp [commentTexts, closings]

@[simp] theorem commentTexts_comments (depth : Nat) (texts : List Text) :
    commentTexts (texts.map (.comment depth)) = texts := by
  simp [commentTexts, List.filterMap_map]

theorem exists_comment_of_layOut {earlier later : List Item} {group : CommentGroup}
    {nesting : Nesting} {output : List OutputLine}
    (h : layOut nesting (earlier ++ .comment group :: later) = .ok output) :
    ∃ first depth rest, output = first ++ group.written.map (.comment depth) ++ rest ∧
      (codeOutputs first).length = (codeLines earlier).length ∧
      commentTexts first = writtenTexts earlier := by
  induction earlier generalizing nesting output with
  | nil =>
      obtain ⟨rest, -, rfl⟩ := layOut_comment h
      exact ⟨[], nesting.depth, rest, rfl, rfl, rfl⟩
  | cons item earlier ih =>
      cases item with
      | comment other =>
          obtain ⟨output, hlater, rfl⟩ := layOut_comment h
          obtain ⟨first, depth, rest, rfl, hcode, hcomments⟩ := ih hlater
          refine ⟨other.written.map (.comment nesting.depth) ++ first, depth, rest, by simp, ?_, ?_⟩
          · simpa [codeOutputs_append] using hcode
          · simp [commentTexts_append, hcomments, writtenTexts]
      | code line =>
          obtain ⟨outer, deeper, next, output, -, hlater, -, rfl⟩ := layOut_code_depth h
          obtain ⟨first, depth, rest, rfl, hcode, hcomments⟩ := ih hlater
          refine ⟨closings nesting.depth outer ++ .code (codeOutput outer line deeper) :: first,
            depth, rest, by simp, ?_, ?_⟩
          · simpa [codeOutputs_append] using hcode
          · simpa [commentTexts_append, writtenTexts] using hcomments

/-! ## Conversion -/

/--
A block comment is closed behind its last written line, unless this line ends
with an opening and an end that share their star.  What follows is read as it
would be without the comment if it is closed, and as a part of it if it is not.
-/
theorem convert_closesComments {text result : Text} {earlier later : List Item}
    {group : CommentGroup} (h : convert text = .ok result)
    (hscan : scan (linesOf text) = earlier ++ .comment group :: later)
    (hblock : "/*".toList <+: group.opening) :
    ∃ first depth rest written,
      layOut .empty (scan (linesOf text)) =
        .ok (first ++ group.written.map (.comment depth) ++ rest) ∧
      (codeOutputs first).length = (codeLines earlier).length ∧
      commentTexts first = writtenTexts earlier ∧
      written = outputText (group.written.map (.comment depth)) ∧
      result = outputText first ++ written ++ outputText rest ∧
      (leavesOpen false written = true ↔
        ∃ before, written = before ++ "/*/\n".toList ∧ leavesOpen false before = false) ∧
      ∀ after,
        leavesOpen false (written ++ after) = leavesOpen (leavesOpen false written) after := by
  obtain ⟨output, hlayout, hresult⟩ := exists_layOut_of_convert h
  obtain ⟨first, depth, rest, rfl, hcode, hcomments⟩ :=
    exists_comment_of_layOut (hscan ▸ hlayout)
  obtain ⟨start, hstart⟩ := exists_text_written hblock depth
  refine ⟨first, depth, rest, _, hlayout, hcode, hcomments, rfl, ?result, ?closed, ?after⟩
  case result =>
    rw [hresult, outputText_append, outputText_append]
  case closed =>
    rw [hstart, Text.leavesOpen_end_iff]
    refine exists_congr fun before => and_congr_left fun _ => ?_
    have hsplit : before ++ "/*/\n".toList = (before ++ ['/']) ++ "*/\n".toList := by simp
    rw [hsplit, List.append_left_inj]
  case after =>
    intro after
    have hline : start ++ "*/\n".toList = (start ++ "*/".toList) ++ '\n' :: [] := by simp
    rw [hstart, hline, List.append_assoc, List.cons_append, List.nil_append,
      Text.leavesOpen_append_lineFeed, Text.leavesOpen_append_lineFeed]
    rfl

def greeting : CommentGroup := ⟨3, 0, "/* hello */ /*".toList, ["".toList, "**world".toList]⟩

def greetingSheet : Text := "// note\n\n/* hello */ /*\n\n   **world\n.a\n  b: c\n".toList

theorem convert_greetingSheet :
    convert greetingSheet =
        .ok "// note\n/* hello */ /*\n *\n * **world\n */\n.a \x7b\n  b: c;\n\x7d\n".toList ∧
      ∃ earlier later, scan (linesOf greetingSheet) = earlier ++ .comment greeting :: later ∧
        "/*".toList <+: greeting.opening ∧
        ∃ first depth rest written,
          layOut .empty (scan (linesOf greetingSheet)) =
            .ok (first ++ greeting.written.map (.comment depth) ++ rest) ∧
          (codeOutputs first).length = (codeLines earlier).length ∧
          commentTexts first = writtenTexts earlier ∧
          written = outputText (greeting.written.map (.comment depth)) ∧
          leavesOpen false written = false := by
  have h : convert greetingSheet =
      .ok "// note\n/* hello */ /*\n *\n * **world\n */\n.a \x7b\n  b: c;\n\x7d\n".toList := by
    decide +kernel
  have hscan : scan (linesOf greetingSheet) =
      [.comment ⟨1, 0, "// note".toList, []⟩] ++ .comment greeting ::
        [.code ⟨6, 0, ".a".toList⟩, .code ⟨7, 2, "b: c".toList⟩] := by
    decide +kernel
  obtain ⟨first, depth, rest, written, hlayout, hcode, hcomments, hwritten, -, hopen, -⟩ :=
    convert_closesComments h hscan (by decide)
  have hlines : greeting.written =
      ["/* hello */ /*", " *", " * **world"].map String.toList ++ [" */".toList] := rfl
  have hends : written = outputText ((["/* hello */ /*", " *", " * **world"].map String.toList).map
      (.comment depth)) ++ padding depth ++ " */\n".toList := by
    rw [hwritten, hlines, List.map_append, outputText_append]
    simp [outputText, OutputLine.text]
  have hclosed : leavesOpen false written = false := by
    rw [← Bool.not_eq_true, hopen, hends]
    rintro ⟨before, hbefore, -⟩
    have hlast := congrArg (fun text : Text => text.reverse[3]?) hbefore
    simp at hlast
  exact ⟨h, _, _, hscan, by decide, first, depth, rest, written, hlayout, hcode, hcomments,
    hwritten, hclosed⟩

def touchingSheet : Text := "/*/\na: b\n".toList

/-- The star that opens the comment is taken for that of its end, and the rule is swallowed. -/
theorem convert_touchingSheet :
    convert touchingSheet = .ok "/*/\na: b;\n".toList ∧
      scan (linesOf touchingSheet) =
        [.comment ⟨1, 0, "/*/".toList, []⟩, .code ⟨2, 0, "a: b".toList⟩] ∧
      CommentGroup.written ⟨1, 0, "/*/".toList, []⟩ = ["/*/".toList] ∧
      leavesOpen false "/*/\n".toList = true ∧
      leavesOpen false "/*/\na: b;\n".toList = true := by
  decide +kernel

end Stylesheets.Indented
