import Stylesheets.Proofs.Indented.TrailingComment
import Stylesheets.Proofs.Text.Balance

/-!
# Braces of the output

Every brace of a text is written again, on the line that it stands on.  The
other braces of the output are those of blocks, which are closed in the order
in which they were opened.  So the output leaves open what the text leaves
open, and without braces in the text it never closes a block too many.
-/

namespace Stylesheets.Indented

open Text (IsBrace IsBraceFree StaysOpen openBrace closeBrace)

variable {c : Char}

def Item.count (c : Char) : Item → Nat
  | .code line => line.text.count c
  | .comment group => group.opening.count c + (group.continuation.map (List.count c)).sum

theorem count_ofLines (opening : Line) (run : List Line) :
    Item.count c (.comment (.ofLines opening run)) =
      opening.text.count c + (run.map fun line => line.text.count c).sum := by
  obtain ⟨⟨blanks, hrun⟩, -⟩ := CommentGroup.continuation_ofLines opening run
  have hcounts : (run.map fun line => line.text.count c) =
      (run.map Line.text).map (List.count c) := by
    rw [List.map_map]
    rfl
  rw [hcounts, hrun, List.map_append, List.sum_append, List.map_replicate, List.count_nil,
    List.sum_replicate_nat, Nat.mul_zero, Nat.add_zero]
  rfl

theorem sum_count_scan (lines : List Line) :
    ((scan lines).map (Item.count c)).sum = (lines.map fun line => line.text.count c).sum := by
  fun_induction scan lines with
  | case1 => rfl
  | case2 line rest hblank ih =>
      have hnil : line.text = [] := List.isEmpty_iff.mp hblank
      simp [hnil, ih]
  | case3 line rest hblank hopens ih =>
      rw [List.map_cons, List.sum_cons, count_ofLines, ih, Nat.add_assoc, ← List.sum_append,
        ← List.map_append, List.takeWhile_append_dropWhile]
      rfl
  | case4 line rest hblank hopens ih =>
      rw [List.map_cons, List.sum_cons, ih]
      rfl

theorem sum_count_linesOf (hc : Text.isBlank c = false) (text : Text) :
    ((linesOf text).map fun line => line.text.count c).sum = text.count c := by
  rw [linesOf_eq, List.map_map]
  have htrimmed : (fun line : Line => line.text.count c) ∘
      (fun item : Text × Nat => lineOf item.1 item.2) = List.count c ∘ Prod.fst :=
    funext fun item => Text.count_trim hc item.1
  rw [htrimmed, ← List.map_map, List.zipIdx_map_fst, Text.sum_count_lines hc]

theorem sum_count_items (hc : Text.isBlank c = false) (text : Text) :
    ((scan (linesOf text)).map (Item.count c)).sum = text.count c := by
  rw [sum_count_scan, sum_count_linesOf hc]

theorem count_marked (hc : IsBrace c) {mark : Text} (hmark : mark.IsBraceFree) (line : Text) :
    (CommentGroup.marked mark line).count c = line.count c := by
  have hspace : (' ' == c) = false := Text.beq_eq_false_of_isBlank hc.isBlank_eq_false rfl
  unfold CommentGroup.marked
  split
  · next hempty => rw [hmark.count_eq_zero hc, List.isEmpty_iff.mp hempty, List.count_nil]
  · simp [List.count_cons, hmark.count_eq_zero hc, hspace]

theorem map_count_marked (hc : IsBrace c) {mark : Text} (hmark : mark.IsBraceFree)
    (lines : List Text) :
    (lines.map (CommentGroup.marked mark)).map (List.count c) = lines.map (List.count c) := by
  rw [List.map_map]
  exact List.map_congr_left fun line _ => count_marked hc hmark line

theorem sum_count_written (hc : IsBrace c) (group : CommentGroup) :
    (group.written.map (List.count c)).sum = Item.count c (.comment group) := by
  unfold CommentGroup.written
  split
  · rw [List.map_cons, List.sum_cons, map_count_marked hc (by decide)]
    rfl
  · have hclosing : ([" */".toList].map (List.count c)).sum = 0 :=
      Text.IsBraceFree.count_eq_zero (by decide : Text.IsBraceFree " */".toList) hc
    rw [List.map_append, List.map_cons, map_count_marked hc (by decide), List.sum_append]
    split
    · rfl
    · rw [hclosing]
      rfl

theorem count_cutComment (hc : Text.isBlank c = false) (text : Text) :
    (cutComment text).1.count c + (cutComment text).2.count c = text.count c := by
  induction text with
  | nil => rfl
  | cons first rest ih =>
      rw [cutComment_cons]
      split
      · next hcut =>
          have hblank : Text.isBlank first = true := (Bool.and_eq_true_iff.mp hcut).1
          rw [List.count_nil, Nat.zero_add, Text.count_trimStart hc, List.count_cons,
            Text.beq_eq_false_of_isBlank hc hblank]
          rfl
      · simp only [List.count_cons] at ih ⊢
        omega

theorem count_splitComment (hc : Text.isBlank c = false) (text : Text) :
    (splitComment text).1.count c + (splitComment text).2.count c = text.count c := by
  unfold splitComment
  split
  · rfl
  · exact count_cutComment hc text

theorem count_nameAndValue? (hc : Text.isBlank c = false) {text name value : Text}
    (h : nameAndValue? text = some (name, value)) :
    name.count c + value.count c = text.count c := by
  simp only [nameAndValue?] at h
  split at h
  · cases h
  · obtain ⟨rfl, rfl⟩ := Prod.mk.inj (Option.some.inj h)
    rw [Text.count_trimStart hc, ← List.count_append, List.takeWhile_append_dropWhile]

theorem count_spelledOut (hc : IsBrace c) (short long : Text) (hshort : short.IsBraceFree)
    (hlong : long.IsBraceFree) (rest : Text) :
    (long ++ Text.trimStart rest).count c = (short ++ rest).count c := by
  rw [hlong.count_append hc, hshort.count_append hc, Text.count_trimStart hc.isBlank_eq_false]

theorem count_spellOut (hc : IsBrace c) (statement : Text) :
    (spellOut statement).count c = statement.count c := by
  unfold spellOut
  split
  · next rest =>
      simp only
      split
      · rfl
      · exact count_spelledOut hc ['='] _ (by decide) (by decide) rest
  · next rest =>
      simp only
      split
      · rfl
      · exact count_spelledOut hc ['+'] _ (by decide) (by decide) rest
  · next rest =>
      split
      · next name value hproperty =>
          have hcolon : Text.IsBraceFree [':'] := by decide
          have hspaced : Text.IsBraceFree [':', ' '] := by decide
          calc (name ++ ([':', ' '] ++ value)).count c
              = name.count c + value.count c := by
                rw [List.count_append, hspaced.count_append hc]
            _ = rest.count c := count_nameAndValue? hc.isBlank_eq_false hproperty
            _ = ([':'] ++ rest).count c := (hcolon.count_append hc rest).symm
      · rfl
  · rfl

theorem count_codeOutput (hc : IsBrace c) (depth : Nat) (line : Line) (deeper : Bool) :
    (codeOutput depth line deeper).statement.count c +
      (codeOutput depth line deeper).comment.count c = line.text.count c := by
  rw [← count_splitComment hc.isBlank_eq_false line.text]
  exact congrArg (· + _) (count_spellOut hc (splitComment line.text).1)

/-! ## Output lines -/

theorem isBraceFree_padding (depth : Nat) : (padding depth).IsBraceFree := by
  refine ⟨fun h => ?_, fun h => ?_⟩
  · cases List.eq_of_mem_replicate h
  · cases List.eq_of_mem_replicate h

theorem isBraceFree_lineEnd : Text.IsBraceFree ['\n'] := by decide

theorem outputText_append (first second : List OutputLine) :
    outputText (first ++ second) = outputText first ++ outputText second :=
  List.flatMap_append

theorem outputText_cons (line : OutputLine) (rest : List OutputLine) :
    outputText (line :: rest) = line.text ++ ['\n'] ++ outputText rest := rfl

theorem count_outputText_comments (hc : IsBrace c) (depth : Nat) (texts : List Text) :
    (outputText (texts.map (.comment depth))).count c = (texts.map (List.count c)).sum := by
  induction texts with
  | nil => rfl
  | cons text rest ih =>
      rw [List.map_cons, outputText_cons, List.count_append, List.count_append, ih,
        isBraceFree_lineEnd.count_eq_zero hc, OutputLine.text,
        (isBraceFree_padding depth).count_append hc, Nat.add_zero, List.map_cons, List.sum_cons]

theorem balance_ending (ending : Ending) :
    ending.text.balance = if ending = .opensBlock then 1 else 0 := by
  cases ending <;> rfl

theorem balance_comment (comment : Text) :
    Text.balance (if comment.isEmpty then [] else ' ' :: comment) = comment.balance := by
  split
  · next hempty => rw [List.isEmpty_iff.mp hempty]
  · have hspace : Text.balance [' '] = 0 := rfl
    rw [← List.singleton_append, Text.balance_append, hspace, zero_add]

theorem balance_codeOutput (depth : Nat) (line : Line) (deeper : Bool) :
    (codeOutput depth line deeper).text.balance =
      line.text.balance +
        if (codeOutput depth line deeper).ending = .opensBlock then 1 else 0 := by
  have hopen := count_codeOutput (.inl rfl) depth line deeper
  have hclose := count_codeOutput (.inr rfl) depth line deeper
  have hsource : (codeOutput depth line deeper).statement.balance +
      (codeOutput depth line deeper).comment.balance = line.text.balance := by
    simp only [Text.balance]
    omega
  rw [CodeOutput.text, Text.balance_append, Text.balance_append, Text.balance_append,
    (isBraceFree_padding _).balance_eq_zero, balance_ending, balance_comment, ← hsource]
  omega

theorem staysOpen_ending (ending : Ending) {depth : Int} (hdepth : 0 ≤ depth) :
    StaysOpen depth ending.text := by
  have hspace : Text.IsBraceFree [' '] := by decide
  have hopens := Text.staysOpen_openBrace hdepth
  cases ending with
  | opensBlock => exact hspace.staysOpen_append.mpr hopens
  | emptyBlock =>
      refine hspace.staysOpen_append.mpr (Text.staysOpen_append.mpr ⟨hopens, ?_⟩)
      exact Text.staysOpen_closeBrace (Int.lt_add_one_of_le hdepth)
  | semicolon => exact (by decide : Text.IsBraceFree [';']).staysOpen hdepth
  | nothing => exact (by decide : Text.IsBraceFree []).staysOpen hdepth

theorem staysOpen_code {output : CodeOutput} (hstatement : output.statement.IsBraceFree)
    (hcomment : output.comment.IsBraceFree) {depth : Int} (hdepth : 0 ≤ depth) :
    StaysOpen depth output.text := by
  have hending := staysOpen_ending output.ending hdepth
  rw [CodeOutput.text, Text.IsBraceFree.staysOpen_of_append, List.append_assoc]
  · rwa [(isBraceFree_padding _).staysOpen_append, hstatement.staysOpen_append]
  · split
    · decide
    · exact Text.isBraceFree_append.mpr ⟨(by decide : Text.IsBraceFree [' ']), hcomment⟩

theorem closings_succ {fromDepth toDepth : Nat} (h : toDepth ≤ fromDepth) :
    closings (fromDepth + 1) toDepth = .close fromDepth :: closings fromDepth toDepth := by
  rw [closings, Nat.succ_sub h, List.range'_concat, List.reverse_append, closings]
  simp [Nat.add_sub_cancel' h]

theorem outputText_close (depth : Nat) (rest : List OutputLine) :
    outputText (.close depth :: rest) =
      padding depth ++ ([closeBrace] ++ (['\n'] ++ outputText rest)) := by
  simp [outputText, OutputLine.text, closeBrace]

theorem balance_closings {fromDepth toDepth : Nat} (h : toDepth ≤ fromDepth) :
    (outputText (closings fromDepth toDepth)).balance = toDepth - fromDepth := by
  induction fromDepth, h using Nat.le_induction with
  | base => simp [closings, outputText]
  | succ fromDepth hle ih =>
      have hclose : Text.balance [closeBrace] = -1 := rfl
      rw [closings_succ hle, outputText_close, Text.balance_append, Text.balance_append,
        Text.balance_append, (isBraceFree_padding _).balance_eq_zero, hclose,
        isBraceFree_lineEnd.balance_eq_zero, ih]
      omega

theorem staysOpen_closings {fromDepth toDepth : Nat} (h : toDepth ≤ fromDepth) :
    StaysOpen fromDepth (outputText (closings fromDepth toDepth)) := by
  induction fromDepth, h using Nat.le_induction with
  | base =>
      simpa [closings, outputText] using
        (by decide : Text.IsBraceFree []).staysOpen (Int.natCast_nonneg toDepth)
  | succ fromDepth hle ih =>
      rw [closings_succ hle, outputText_close, (isBraceFree_padding _).staysOpen_append,
        Text.staysOpen_append, isBraceFree_lineEnd.staysOpen_append]
      refine ⟨Text.staysOpen_closeBrace (by omega), ?_⟩
      have hdepth : ((fromDepth + 1 : Nat) : Int) + Text.balance [closeBrace] = fromDepth :=
        Int.add_neg_cancel_right fromDepth 1
      rwa [hdepth]

/-! ## Layout -/

theorem layOut_comment {nesting : Nesting} {group : CommentGroup} {rest : List Item}
    {output : List OutputLine} (h : layOut nesting (.comment group :: rest) = .ok output) :
    ∃ later, layOut nesting rest = .ok later ∧
      output = group.written.map (.comment nesting.depth) ++ later := by
  rw [layOut] at h
  cases hlater : layOut nesting rest with
  | error fault => simp [hlater, bind, Except.bind] at h
  | ok later =>
      exact ⟨later, rfl, by simpa [hlater, bind, Except.bind, pure, Except.pure] using h.symm⟩

theorem Nesting.depth_settle_le (indent : Nat) (nesting : Nesting) :
    (nesting.settle indent).depth ≤ nesting.depth :=
  (List.dropWhile_sublist _).length_le

theorem Nesting.depth_of_place? {indent : Nat} {nesting placed : Nesting}
    (h : nesting.place? indent = some placed) : placed.depth = nesting.depth := by
  simpa [Nesting.depth] using congrArg List.length (Nesting.place?_eq_some h).2.1

/-- A code line closes blocks first, and leaves one more open if it opens one itself. -/
theorem layOut_code_depth {nesting : Nesting} {line : Line} {rest : List Item}
    {output : List OutputLine} (h : layOut nesting (.code line :: rest) = .ok output) :
    ∃ depth deeper next later, depth ≤ nesting.depth ∧ layOut next rest = .ok later ∧
      (next.depth : Int) =
        depth + (if (codeOutput depth line deeper).ending = .opensBlock then 1 else 0) ∧
      output = closings nesting.depth depth ++ .code (codeOutput depth line deeper) :: later := by
  rw [layOut] at h
  cases hplace : (nesting.settle line.indent).place? line.indent with
  | none => simp [hplace] at h
  | some placed =>
      have hdepth := Nesting.depth_of_place? hplace
      simp only [hplace, hdepth] at h
      cases hlater : layOut (if (codeOutput (nesting.settle line.indent).depth line
          (goesDeeper line.indent rest)).ending = .opensBlock
        then placed.opening line.indent else placed) rest with
      | error fault => simp [hlater, bind, Except.bind] at h
      | ok later =>
          refine ⟨(nesting.settle line.indent).depth, goesDeeper line.indent rest, _, later,
            Nesting.depth_settle_le _ _, hlater, ?_, ?_⟩
          · split
            · exact congrArg (fun depth : Nat => (depth + 1 : Int)) hdepth
            · rw [hdepth, add_zero]
          · simpa [hlater, bind, Except.bind, pure, Except.pure] using h.symm

theorem balance_layOut {items : List Item} {nesting : Nesting} {output : List OutputLine}
    (h : layOut nesting items = .ok output) :
    nesting.depth + (outputText output).balance =
      ((items.map (Item.count openBrace)).sum : Int) - (items.map (Item.count closeBrace)).sum := by
  induction items generalizing nesting output with
  | nil =>
      rw [← Except.ok.inj h, balance_closings (Nat.zero_le _)]
      simp
  | cons item rest ih =>
      cases item with
      | comment group =>
          obtain ⟨later, hlater, rfl⟩ := layOut_comment h
          have hrest := ih hlater
          rw [outputText_append, Text.balance_append, Text.balance,
            count_outputText_comments (.inl rfl), count_outputText_comments (.inr rfl),
            sum_count_written (.inl rfl), sum_count_written (.inr rfl)]
          simp only [List.map_cons, List.sum_cons]
          omega
      | code line =>
          obtain ⟨depth, deeper, next, later, hle, hlater, hnext, rfl⟩ := layOut_code_depth h
          have hrest := ih hlater
          rw [outputText_append, outputText_cons, Text.balance_append, Text.balance_append,
            Text.balance_append, balance_closings hle, OutputLine.text, balance_codeOutput,
            isBraceFree_lineEnd.balance_eq_zero, Text.balance]
          simp only [List.map_cons, List.sum_cons, Item.count]
          omega

theorem staysOpen_layOut {items : List Item} {nesting : Nesting} {output : List OutputLine}
    (hfree : ∀ item ∈ items, ∀ c, IsBrace c → item.count c = 0)
    (h : layOut nesting items = .ok output) : StaysOpen nesting.depth (outputText output) := by
  induction items generalizing nesting output with
  | nil =>
      rw [← Except.ok.inj h]
      exact staysOpen_closings (Nat.zero_le _)
  | cons item rest ih =>
      obtain ⟨hitem, hrest⟩ := List.forall_mem_cons.mp hfree
      cases item with
      | comment group =>
          obtain ⟨later, hlater, rfl⟩ := layOut_comment h
          have hcomments : (outputText (group.written.map (.comment nesting.depth))).IsBraceFree :=
            Text.isBraceFree_iff_count.mpr fun c hc => by
              rw [count_outputText_comments hc, sum_count_written hc, hitem c hc]
          rw [outputText_append, hcomments.staysOpen_append]
          exact ih hrest hlater
      | code line =>
          obtain ⟨depth, deeper, next, later, hle, hlater, hnext, rfl⟩ := layOut_code_depth h
          have hsource : ∀ c, IsBrace c → (codeOutput depth line deeper).statement.count c = 0 ∧
              (codeOutput depth line deeper).comment.count c = 0 := fun c hc =>
            Nat.add_eq_zero_iff.mp ((count_codeOutput hc depth line deeper).trans (hitem c hc))
          have hline : StaysOpen depth (codeOutput depth line deeper).text :=
            staysOpen_code (Text.isBraceFree_iff_count.mpr fun c hc => (hsource c hc).1)
              (Text.isBraceFree_iff_count.mpr fun c hc => (hsource c hc).2)
              (Int.natCast_nonneg depth)
          have hbalance : line.text.balance = 0 :=
            Text.IsBraceFree.balance_eq_zero (Text.isBraceFree_iff_count.mpr hitem)
          have hlaterOpen := ih hrest hlater
          rw [outputText_append, Text.staysOpen_append, balance_closings hle, outputText_cons,
            List.append_assoc, Text.staysOpen_append, isBraceFree_lineEnd.staysOpen_append,
            OutputLine.text, balance_codeOutput, hbalance]
          have hclosed : (nesting.depth : Int) + (depth - nesting.depth) = depth := by omega
          rw [hclosed, zero_add, ← hnext]
          exact ⟨staysOpen_closings hle, hline, hlaterOpen⟩

theorem exists_layOut_of_convert {text result : Text} (h : convert text = .ok result) :
    ∃ output, layOut .empty (scan (linesOf text)) = .ok output ∧ result = outputText output := by
  cases hlayout : layOut .empty (scan (linesOf text)) with
  | error fault => simp [convert, hlayout, Except.map] at h
  | ok output => exact ⟨output, rfl, by simpa [convert, hlayout, Except.map] using h.symm⟩

/--
A conversion keeps the balance of braces, those in comments and addresses
included; and a text without braces is written as blocks that are closed in
turn and all of them closed at the end.
-/
theorem convert_keepsBalance {text result : Text} (h : convert text = .ok result) :
    (result.count openBrace : Int) - result.count closeBrace =
        text.count openBrace - text.count closeBrace ∧
      (openBrace ∉ text → closeBrace ∉ text →
        (∀ start : Text, start <+: result → start.count closeBrace ≤ start.count openBrace) ∧
          result.count openBrace = result.count closeBrace) := by
  cases hlayout : layOut .empty (scan (linesOf text)) with
  | error fault => simp [convert, hlayout, Except.map] at h
  | ok output =>
      obtain rfl : outputText output = result := by
        simpa [convert, hlayout, Except.map] using h
      have hsame : (outputText output).balance = text.balance := by
        have hbalance := balance_layOut hlayout
        rw [sum_count_items rfl, sum_count_items rfl] at hbalance
        simpa [Nesting.empty, Nesting.depth, Text.balance] using hbalance
      refine ⟨hsame, fun hopen hclose => ⟨fun start hstart => ?_, ?_⟩⟩
      · have hfree : ∀ item ∈ scan (linesOf text), ∀ c, IsBrace c → item.count c = 0 := by
          intro item hitem c hc
          have hnone : ((scan (linesOf text)).map (Item.count c)).sum = 0 := by
            rw [sum_count_items hc.isBlank_eq_false]
            exact Text.IsBraceFree.count_eq_zero ⟨hopen, hclose⟩ hc
          exact List.sum_eq_zero_iff_forall_eq_nat.mp hnone _ (List.mem_map_of_mem hitem)
        have hstays := staysOpen_layOut hfree hlayout start hstart
        simp only [Nesting.empty, Nesting.depth, Text.balance] at hstays
        simpa using hstays
      · rw [Text.IsBraceFree.balance_eq_zero ⟨hopen, hclose⟩, Text.balance] at hsame
        omega

def interpolatedSheet : Text :=
  ".a#\x7b$b\x7d\n  // see \x7b\n  +c\n".toList

def interpolatedResult : Text :=
  ".a#\x7b$b\x7d \x7b\n  // see \x7b\n  @include c;\n\x7d\n".toList

theorem convert_interpolatedSheet_keepsBalance :
    convert interpolatedSheet = .ok interpolatedResult ∧
      interpolatedSheet.balance = 1 ∧
      (interpolatedResult.count openBrace : Int) - interpolatedResult.count closeBrace =
        interpolatedSheet.count openBrace - interpolatedSheet.count closeBrace ∧
      convert nestedSheet = .ok bracketedSheet ∧
      openBrace ∉ nestedSheet ∧ closeBrace ∉ nestedSheet ∧
      (∀ start : Text, start <+: bracketedSheet →
        start.count closeBrace ≤ start.count openBrace) ∧
      bracketedSheet.count openBrace = bracketedSheet.count closeBrace := by
  have hinterpolated : convert interpolatedSheet = .ok interpolatedResult := by decide +kernel
  have hnested : convert nestedSheet = .ok bracketedSheet := by decide +kernel
  have hopen : openBrace ∉ nestedSheet := by decide
  have hclose : closeBrace ∉ nestedSheet := by decide
  exact ⟨hinterpolated, by decide, (convert_keepsBalance hinterpolated).1, hnested, hopen, hclose,
    (convert_keepsBalance hnested).2 hopen hclose⟩

end Stylesheets.Indented
