import Stylesheets.Proofs.Indented.Replacement
import Stylesheets.Proofs.Text.Trimming

/-!
# Comments after code

A comment at the end of a code line changes nothing but the output of this
line, where it follows the semicolon or the brace.  A line with an address is
the exception: it keeps its text whole, so that a comment on it is taken for a
part of the statement, and what ends the line comes after the comment.
-/

namespace Stylesheets.Indented

def commentMark : Text := "//".toList

def addressMark : Text := "url(".toList

def withComment (text comment : Text) : Text := text ++ " // ".toList ++ comment

theorem cutComment_cons (c : Char) (rest : Text) :
    cutComment (c :: rest) =
      if Text.isBlank c && commentMark.isPrefixOf (Text.trimStart rest)
      then ([], Text.trimStart rest)
      else (c :: (cutComment rest).1, (cutComment rest).2) := rfl

theorem isPrefixOf_trimStart_eq_false {mark text : Text} (h : ¬ mark <:+: text) :
    mark.isPrefixOf (Text.trimStart text) = false := by
  rw [← Bool.not_eq_true, List.isPrefixOf_iff_prefix]
  exact fun hstarts => h (hstarts.isInfix.trans (List.dropWhile_suffix _).isInfix)

theorem cutComment_eq_self {text : Text} (h : ¬ commentMark <:+: text) :
    cutComment text = (text, []) := by
  induction text with
  | nil => rfl
  | cons c rest ih =>
      rw [List.infix_cons_iff, not_or] at h
      rw [cutComment_cons, isPrefixOf_trimStart_eq_false h.2, ih h.2]
      simp

theorem trimStart_append_of_last {text : Text} (hempty : text ≠ [])
    (hlast : ∀ c ∈ text.getLast?, Text.isBlank c = false) (more : Text) :
    Text.trimStart (text ++ more) = Text.trimStart text ++ more := by
  rw [Text.trimStart, Text.trimStart, List.dropWhile_append, if_neg]
  intro hblank
  rw [List.isEmpty_iff, List.dropWhile_eq_nil_iff] at hblank
  have hnot := hlast _ (List.getLast?_eq_some_getLast hempty)
  simp [hblank _ (List.getLast_mem hempty)] at hnot

theorem cutComment_append {text gap : Text} (hmark : ¬ commentMark <:+: text)
    (hlast : ∀ c ∈ text.getLast?, Text.isBlank c = false) (hempty : gap ≠ [])
    (hgap : ∀ c ∈ gap, Text.isBlank c = true) (comment : Text) :
    cutComment (text ++ (gap ++ (commentMark ++ comment))) =
      (text, commentMark ++ comment) := by
  obtain ⟨space, gap, rfl⟩ := List.exists_cons_of_ne_nil hempty
  have hspace : Text.isBlank space = true := hgap space (by simp)
  induction text with
  | nil =>
      have htrim : Text.trimStart (gap ++ (commentMark ++ comment)) = commentMark ++ comment :=
        Text.trimStart_append (fun c hc => hgap c (by simp [hc]))
          (by simp [commentMark, Text.isBlank])
      rw [List.nil_append, List.cons_append, cutComment_cons, htrim, hspace]
      simp [commentMark]
  | cons c rest ih =>
      rw [List.infix_cons_iff, not_or] at hmark
      have hrest : ∀ c ∈ rest.getLast?, Text.isBlank c = false := by
        intro last hmem
        refine hlast last ?_
        rw [List.getLast?_cons, Option.mem_def.mp hmem]
        rfl
      have hcut : (Text.isBlank c && commentMark.isPrefixOf
          (Text.trimStart (rest ++ (space :: gap ++ (commentMark ++ comment))))) = false := by
        by_cases hend : rest = []
        · simp [hlast c (by simp [hend])]
        · rw [trimStart_append_of_last hend hrest, List.cons_append,
            Text.isPrefixOf_append_blank (by simp [commentMark, Text.isBlank]) hspace,
            isPrefixOf_trimStart_eq_false hmark.2, Bool.and_false]
      rw [List.cons_append, cutComment_cons, hcut, ih hmark.2 hrest]
      simp

theorem splitComment_eq_cutComment {text : Text} (h : ¬ addressMark <:+: text) :
    splitComment text = cutComment text := by
  have hnone : Text.contains text addressMark = false := (Text.contains_eq_false_iff _ _).mpr h
  rw [splitComment, if_neg]
  exact fun haddress => Bool.false_ne_true (hnone.symm.trans haddress)

/-! ## Lines with a comment -/

theorem columnAfter_append {text : Text} (h : ∃ c ∈ text, Text.isBlank c = false)
    (column : Nat) (more : Text) : columnAfter column (text ++ more) = columnAfter column text := by
  induction text generalizing column with
  | nil => simp at h
  | cons c rest ih =>
      by_cases hblank : Text.isBlank c = true
      · have hrest : ∃ c ∈ rest, Text.isBlank c = false := by simpa [hblank] using h
        rw [List.cons_append]
        unfold columnAfter
        split <;> simp_all
      · have hspace : c ≠ ' ' := by
          rintro rfl
          exact hblank rfl
        have htab : c ≠ '\t' := by
          rintro rfl
          exact hblank rfl
        simp [columnAfter, hspace, htab]

theorem last_withComment (raw : Text) {comment : Text} (hempty : comment ≠ [])
    (htrim : comment.trim = comment) :
    ∀ c ∈ (withComment raw comment).getLast?, Text.isBlank c = false := by
  intro c hc
  refine (Text.isTrimmed_iff_trim_eq.mpr htrim).last c ?_
  obtain ⟨first, rest, rfl⟩ := List.exists_cons_of_ne_nil hempty
  simpa [withComment, List.getLast?_append, List.getLast?_cons] using hc

section Line

variable {raw comment : Text} (hraw : raw.trim ≠ []) (hempty : comment ≠ [])
  (htrim : comment.trim = comment)

include hraw hempty htrim

theorem trim_withComment :
    ∃ gap, gap ≠ [] ∧ (∀ c ∈ gap, Text.isBlank c = true) ∧
      (withComment raw comment).trim =
        raw.trim ++ (gap ++ (commentMark ++ ' ' :: comment)) := by
  obtain ⟨before, after, hbefore, hafter, hsplit⟩ := Text.exists_eq_append_trim raw
  refine ⟨after ++ [' '], by simp, ?_, ?_⟩
  · intro c hc
    rcases List.mem_append.mp hc with hc | hc
    · exact hafter c hc
    · rw [List.mem_singleton.mp hc]
      rfl
  · have hwhole : withComment raw comment =
        before ++ (raw.trim ++ ((after ++ [' ']) ++ (commentMark ++ ' ' :: comment))) ++ [] := by
      conv_lhs => rw [hsplit]
      simp [withComment, commentMark]
    rw [hwhole]
    refine Text.trim_append hbefore ⟨fun c hc => ?_, fun c hc => ?_⟩ (by simp)
    · refine (Text.isTrimmed_trim raw).head c ?_
      obtain ⟨first, rest, hfirst⟩ := List.exists_cons_of_ne_nil hraw
      simpa [hfirst] using hc
    · refine last_withComment raw hempty htrim c ?_
      obtain ⟨first, rest, rfl⟩ := List.exists_cons_of_ne_nil hempty
      simpa [withComment, commentMark, List.getLast?_append, List.getLast?_cons] using hc

theorem indentationOf_withComment :
    indentationOf (withComment raw comment) = indentationOf raw := by
  obtain ⟨before, after, -, hafter, hsplit⟩ := Text.exists_eq_append_trim raw
  obtain ⟨first, rest, hfirst⟩ := List.exists_cons_of_ne_nil hraw
  have hrawEnd : raw.trimEnd = before ++ raw.trim := by
    have hends := @Text.trimEnd_append (before ++ raw.trim) after hafter (fun c hc =>
      (Text.isTrimmed_trim raw).last c (by simpa [hfirst, List.getLast?_append,
        List.getLast?_cons] using hc))
    rwa [← hsplit] at hends
  have hwholeEnd : (withComment raw comment).trimEnd =
      (before ++ raw.trim) ++ (after ++ (" // ".toList ++ comment)) := by
    have hends := @Text.trimEnd_append (withComment raw comment) [] (by simp)
      (last_withComment raw hempty htrim)
    rw [List.append_nil] at hends
    rw [hends, withComment]
    conv_lhs => rw [hsplit]
    simp
  rw [indentationOf, indentationOf, hrawEnd, hwholeEnd]
  refine columnAfter_append ⟨first, by simp [hfirst], ?_⟩ 0 _
  exact (Text.isTrimmed_trim raw).head first (by simp [hfirst])

theorem splitComment_withComment (hmark : raw.contains commentMark = false)
    (haddress : (withComment raw comment).contains addressMark = false) :
    splitComment (withComment raw comment).trim = (raw.trim, commentMark ++ ' ' :: comment) ∧
      splitComment raw.trim = (raw.trim, []) := by
  rw [Text.contains_eq_false_iff] at hmark haddress
  have hrawInfix : raw <:+: withComment raw comment :=
    ⟨[], " // ".toList ++ comment, by simp [withComment]⟩
  have hnoMark : ¬ commentMark <:+: raw.trim := fun h => hmark (h.trans (Text.trim_isInfix raw))
  obtain ⟨gap, hgap, hblank, htext⟩ := trim_withComment hraw hempty htrim
  rw [splitComment_eq_cutComment fun h => haddress (h.trans (Text.trim_isInfix _)),
    splitComment_eq_cutComment fun h =>
      haddress (h.trans ((Text.trim_isInfix raw).trans hrawInfix)), htext]
  exact ⟨cutComment_append hnoMark (Text.isTrimmed_trim raw).last hgap hblank (' ' :: comment),
    cutComment_eq_self hnoMark⟩

theorem opensComment_withComment (index : Nat) :
    (lineOf (withComment raw comment) index).opensComment = (lineOf raw index).opensComment := by
  obtain ⟨gap, hgap, hblank, hwhole⟩ := trim_withComment hraw hempty htrim
  obtain ⟨space, gap, rfl⟩ := List.exists_cons_of_ne_nil hgap
  have hspace : Text.isBlank space = true := hblank space (by simp)
  simp only [Line.opensComment, lineOf, hwhole, List.cons_append]
  rw [Text.isPrefixOf_append_blank (by simp [Text.isBlank]) hspace,
    Text.isPrefixOf_append_blank (by simp [Text.isBlank]) hspace]

end Line

theorem codeOutput_withComment {raw comment : Text} (hraw : raw.trim ≠ []) (hempty : comment ≠ [])
    (htrim : comment.trim = comment) (hmark : raw.contains commentMark = false)
    (haddress : (withComment raw comment).contains addressMark = false)
    (index depth : Nat) (deeper : Bool) :
    codeOutput depth (lineOf (withComment raw comment) index) deeper =
        { codeOutput depth (lineOf raw index) deeper with
          comment := commentMark ++ ' ' :: comment } ∧
      (codeOutput depth (lineOf raw index) deeper).comment = [] := by
  obtain ⟨hwith, hwithout⟩ := splitComment_withComment hraw hempty htrim hmark haddress
  simp [codeOutput, lineOf, hwith, hwithout]

theorem text_codeOutput_of_address {raw : Text} (haddress : addressMark <:+: raw.trim)
    (index depth : Nat) (deeper : Bool) :
    ∃ ending : Ending, (codeOutput depth (lineOf raw index) deeper).text =
      padding depth ++ spellOut raw.trim ++ ending.text := by
  have hsplit : splitComment raw.trim = (raw.trim, []) := by
    rw [splitComment, if_pos]
    exact (Text.contains_iff_isInfix _ _).mpr haddress
  exact ⟨endingOf (spellOut raw.trim) deeper, by simp [codeOutput, lineOf, hsplit, CodeOutput.text]⟩

/-! ## Texts with a comment -/

theorem outputText_append_code (first rest : List OutputLine) (output : CodeOutput) :
    outputText (first ++ .code output :: rest) =
      outputText first ++ output.text ++ '\n' :: outputText rest := by
  simp [outputText, OutputLine.text]

theorem convert_eq_of_scan {text : Text} {earlier later : List Item} {line : Line}
    (hscan : scan (linesOf text) = earlier ++ .code line :: later) :
    (∃ fault, convert text = .error fault) ∨
      ∃ first depth deeper rest, (codeOutputs first).length = (codeLines earlier).length ∧
        convert text = .ok (outputText first ++ (codeOutput depth line deeper).text ++
          '\n' :: outputText rest) := by
  rw [convert, hscan]
  rcases layOut_exchange rfl (fun _ _ => Iff.rfl) .empty earlier later with
    ⟨⟨fault, hfault⟩, -⟩ | ⟨first, depth, deeper, rest, hcount, hout, -⟩
  · exact .inl ⟨fault, by rw [hfault]; rfl⟩
  · refine .inr ⟨first, depth, deeper, rest, hcount, ?_⟩
    rw [hout, Except.map, outputText_append_code]

theorem length_codeLines_of_scan {text : Text} {number : Nat} {line : Line}
    {earlier later : List Item} (hcode : (codeLinesOf text)[number]? = some line)
    (hscan : scan (linesOf text) = earlier ++ .code line :: later) :
    (codeLines earlier).length = number := by
  have hlines : codeLinesOf text = codeLines earlier ++ line :: codeLines later := by
    rw [codeLinesOf, hscan, codeLines_append, codeLines_cons_code]
  have hindex : (codeLinesOf text)[(codeLines earlier).length]? = (codeLinesOf text)[number]? := by
    rw [hcode, hlines]
    simp
  have hlength : (codeLines earlier).length < (codeLinesOf text).length := by
    simp [hlines]
  exact (List.getElem?_inj hlength (nodup_codeLines_scan text)).mp hindex

section Conversion

variable {text commented raw comment : Text} {before after : List Text} {number : Nat}
  (htext : text.lines = before ++ raw :: after)
  (hcommented : commented.lines = before ++ withComment raw comment :: after)
  (hcode : (codeLinesOf text)[number]? = some (lineOf raw before.length))
  (hempty : comment ≠ []) (htrim : comment.trim = comment)

include hcode in
theorem trim_ne_nil_of_code : raw.trim ≠ [] :=
  List.isEmpty_eq_false_iff.mp (mem_codeLines_scan (List.mem_of_getElem? hcode)).1

include htext hcommented hcode hempty htrim

theorem scan_withComment :
    ∃ earlier later, (codeLines earlier).length = number ∧
      scan (linesOf text) = earlier ++ .code (lineOf raw before.length) :: later ∧
        scan (linesOf commented) =
          earlier ++ .code (lineOf (withComment raw comment) before.length) :: later := by
  have hraw := trim_ne_nil_of_code hcode
  have hmem : lineOf raw before.length ∈ codeLines (scan (linesOf text)) :=
    List.mem_of_getElem? hcode
  obtain ⟨gap, -, -, hwhole⟩ := trim_withComment hraw hempty htrim
  have hexchange : ∃ earlier later,
      scan (linesOf text) = earlier ++ .code (lineOf raw before.length) :: later ∧
        scan (linesOf commented) =
          earlier ++ .code (lineOf (withComment raw comment) before.length) :: later := by
    rw [linesOf_eq_append htext] at hmem ⊢
    rw [linesOf_eq_append hcommented]
    refine scan_exchange ?_ ?_ hmem (indentationOf_withComment hraw hempty htrim) ?_ ?_
    · intro hearlier
      have hnumber := (number_of_mem_linesFrom hearlier).2
      rw [Nat.zero_add] at hnumber
      exact absurd hnumber (Nat.not_succ_le_self _)
    · intro hlater
      exact absurd (number_of_mem_linesFrom hlater).1 (lt_irrefl _)
    · simp [Line.isBlank, lineOf, hwhole, hraw]
    · rw [opensComment_withComment hraw hempty htrim, (mem_codeLines_scan hmem).2]
  obtain ⟨earlier, later, hscan, hscanCommented⟩ := hexchange
  exact ⟨earlier, later, length_codeLines_of_scan hcode hscan, hscan, hscanCommented⟩

theorem layOut_withComment (hmark : raw.contains commentMark = false)
    (haddress : (withComment raw comment).contains addressMark = false) :
    ((∃ fault, layOut .empty (scan (linesOf text)) = .error fault) ∧
        ∃ fault, layOut .empty (scan (linesOf commented)) = .error fault) ∨
      ∃ first output rest, (codeOutputs first).length = number ∧ output.comment = [] ∧
        layOut .empty (scan (linesOf text)) = .ok (first ++ .code output :: rest) ∧
        layOut .empty (scan (linesOf commented)) =
          .ok (first ++
            .code { output with comment := commentMark ++ ' ' :: comment } :: rest) := by
  have hraw := trim_ne_nil_of_code hcode
  obtain ⟨earlier, later, hcount, hscan, hscanCommented⟩ :=
    scan_withComment htext hcommented hcode hempty htrim
  have hsame := codeOutput_withComment hraw hempty htrim hmark haddress before.length
  have hindent : (lineOf (withComment raw comment) before.length).indent =
      (lineOf raw before.length).indent := indentationOf_withComment hraw hempty htrim
  rcases layOut_exchange hindent (fun depth deeper => by rw [(hsame depth deeper).1])
    .empty earlier later with hfaults | ⟨first, depth, deeper, rest, hfirst, hout, hother⟩
  · rw [hscan, hscanCommented]
    exact .inl hfaults
  · rw [hscan, hscanCommented]
    rw [(hsame depth deeper).1] at hother
    exact .inr ⟨first, _, rest, hfirst.trans hcount, (hsame depth deeper).2, hout, hother⟩

theorem convert_withComment_of_address
    (haddress : (withComment raw comment).contains addressMark = true) {result : Text}
    (hresult : convert commented = .ok result) :
    ∃ (first : List OutputLine) (depth : Nat) (ending : Ending) (rest : List OutputLine),
      (codeOutputs first).length = number ∧
        result = outputText first ++ (padding depth ++
          spellOut (withComment raw comment).trim ++ ending.text) ++ '\n' :: outputText rest := by
  obtain ⟨earlier, later, hcount, -, hscanCommented⟩ :=
    scan_withComment htext hcommented hcode hempty htrim
  have hinfix : addressMark <:+: (withComment raw comment).trim :=
    Text.isInfix_trim (by simp [addressMark]) (Text.isTrimmed_iff_trim_eq.mpr (by decide))
      ((Text.contains_iff_isInfix _ _).mp haddress)
  rcases convert_eq_of_scan hscanCommented with ⟨fault, hfault⟩ |
    ⟨first, depth, deeper, rest, hfirst, hout⟩
  · rw [hfault] at hresult
    cases hresult
  · obtain ⟨ending, htextOut⟩ := text_codeOutput_of_address hinfix before.length depth deeper
    refine ⟨first, depth, ending, rest, hfirst.trans hcount, ?_⟩
    rw [hresult] at hout
    rw [← htextOut]
    exact Except.ok.inj hout

end Conversion

/--
A comment put after a code line leaves the conversion as it is, but for the
comment at the end of the output of this line.  With an address on the line or
in the comment, what ends the line stands after the comment instead.
-/
theorem convert_withComment {text commented raw comment : Text} {before after : List Text}
    {number : Nat} (htext : text.lines = before ++ raw :: after)
    (hcommented : commented.lines = before ++ withComment raw comment :: after)
    (hcode : (codeLinesOf text)[number]? = some (lineOf raw before.length))
    (hmark : raw.contains commentMark = false) (hempty : comment ≠ [])
    (htrim : comment.trim = comment) :
    ((withComment raw comment).contains addressMark = false →
      ((∃ result, convert commented = .ok result) ↔ ∃ result, convert text = .ok result) ∧
        ∀ result, convert text = .ok result → ∃ first output rest,
          layOut .empty (scan (linesOf text)) = .ok (first ++ .code output :: rest) ∧
            (codeOutputs first).length = number ∧
            output.text = padding output.depth ++ output.statement ++ output.ending.text ∧
            result = outputText first ++ output.text ++ '\n' :: outputText rest ∧
            convert commented = .ok (outputText first ++ withComment output.text comment ++
              '\n' :: outputText rest)) ∧
      ((withComment raw comment).contains addressMark = true →
        ∀ result, convert commented = .ok result →
          ∃ (first : List OutputLine) (depth : Nat) (ending : Ending) (rest : List OutputLine),
            (codeOutputs first).length = number ∧
              result = outputText first ++ (padding depth ++
                spellOut (withComment raw comment).trim ++ ending.text) ++
                  '\n' :: outputText rest) := by
  refine ⟨fun haddress => ?_, fun haddress result =>
    convert_withComment_of_address htext hcommented hcode hempty htrim haddress⟩
  rcases layOut_withComment htext hcommented hcode hempty htrim hmark haddress with
    ⟨⟨fault, hfault⟩, ⟨otherFault, hotherFault⟩⟩ |
    ⟨first, output, rest, hcount, hnone, hout, hother⟩
  · simp [convert, hfault, hotherFault, Except.map]
  · refine ⟨by simp [convert, hout, hother, Except.map], fun result hresult => ?_⟩
    rw [convert, hout, Except.map, outputText_append_code] at hresult
    refine ⟨first, output, rest, hout, hcount, ?_, (Except.ok.inj hresult).symm, ?_⟩
    · simp [CodeOutput.text, hnone]
    · rw [convert, hother, Except.map, outputText_append_code]
      simp [CodeOutput.text, hnone, withComment, commentMark]

def ruleSheet : Text := "a\n  b: c\n".toList

def commentedRuleSheet : Text := "a // d\n  b: c\n".toList

theorem convert_commentedRuleSheet :
    convert commentedRuleSheet = .ok "a \x7b // d\n  b: c;\n\x7d\n".toList ∧
      ∃ first output rest,
        layOut .empty (scan (linesOf ruleSheet)) = .ok (first ++ .code output :: rest) ∧
          (codeOutputs first).length = 0 ∧
          output.text = padding output.depth ++ output.statement ++ output.ending.text ∧
          "a \x7b\n  b: c;\n\x7d\n".toList =
            outputText first ++ output.text ++ '\n' :: outputText rest ∧
          convert commentedRuleSheet = .ok (outputText first ++
            withComment output.text "d".toList ++ '\n' :: outputText rest) := by
  have h : convert ruleSheet = .ok "a \x7b\n  b: c;\n\x7d\n".toList := by decide +kernel
  have hinert := @convert_withComment ruleSheet commentedRuleSheet "a".toList "d".toList []
    ["  b: c".toList] 0 (by decide +kernel) (by decide +kernel) (by decide +kernel)
    (by decide +kernel) (by decide +kernel) (by decide +kernel)
  exact ⟨by decide +kernel, (hinert.1 (by decide +kernel)).2 _ h⟩

def propertySheet : Text := "a: b\n".toList

def addressCommentSheet : Text := "a: b // url(c)\n".toList

/-- An address in a comment draws the semicolon into it, and so does one in the statement. -/
theorem convert_addressCommentSheet :
    propertySheet.lines = ["a: b".toList] ∧
      addressCommentSheet.lines = [withComment "a: b".toList "url(c)".toList] ∧
      (codeLinesOf propertySheet)[0]? = some (lineOf "a: b".toList 0) ∧
      Text.contains "a: b".toList commentMark = false ∧
      Text.trim "url(c)".toList = "url(c)".toList ∧
      convert propertySheet = .ok "a: b;\n".toList ∧
      convert addressCommentSheet = .ok "a: b // url(c);\n".toList ∧
      convert addressCommentSheet ≠
        .ok (withComment "a: b;".toList "url(c)".toList ++ ['\n']) ∧
      convert "a: url(b)\n".toList = .ok "a: url(b);\n".toList ∧
      convert "a: url(b) // c\n".toList = .ok "a: url(b) // c;\n".toList := by
  decide +kernel

end Stylesheets.Indented
