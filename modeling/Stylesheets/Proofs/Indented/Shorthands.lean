import Stylesheets.Proofs.Indented.Braces

/-!
# Shorthands in the output

The statement of a code line is written with its shorthand spelled out: `=` and
`+` before a name become directives, and a property that begins with its colon
gets the colon after its name.  So no line of the output begins with a sign of
a directive, but for a code line that says no more than the sign.
-/

namespace Stylesheets.Indented

theorem last_cutComment {text : Text} (hlast : ∀ c ∈ text.getLast?, Text.isBlank c = false) :
    ∀ c ∈ (cutComment text).1.getLast?, Text.isBlank c = false := by
  induction text with
  | nil => exact hlast
  | cons first rest ih =>
      rw [cutComment_cons]
      split
      · simp
      · next hcut =>
          have hrest : ∀ c ∈ rest.getLast?, Text.isBlank c = false := by
            intro c hc
            refine hlast c ?_
            rw [List.getLast?_cons, Option.mem_def.mp hc]
            rfl
          cases hcode : (cutComment rest).1 with
          | cons second more => simpa [hcode] using ih hrest
          | nil =>
              -- White space before the cut would have been cut off as well.
              cases rest with
              | nil => simpa using hlast
              | cons second more =>
                  rw [cutComment_cons] at hcode
                  split at hcode
                  · next hsecond =>
                      obtain ⟨hblank, hmark⟩ := Bool.and_eq_true_iff.mp hsecond
                      have htrim : Text.trimStart (second :: more) = Text.trimStart more :=
                        List.dropWhile_cons_of_pos hblank
                      simpa [htrim, hmark] using hcut
                  · cases hcode

theorem last_splitComment {text : Text} (hlast : ∀ c ∈ text.getLast?, Text.isBlank c = false) :
    ∀ c ∈ (splitComment text).1.getLast?, Text.isBlank c = false := by
  unfold splitComment
  split
  · exact hlast
  · exact last_cutComment hlast

theorem head?_splitComment {text : Text} (hhead : ∀ c ∈ text.head?, Text.isBlank c = false) :
    (splitComment text).1.head? = text.head? := by
  unfold splitComment
  split
  · rfl
  · cases text with
    | nil => rfl
    | cons first rest => simp [cutComment_cons, hhead first rfl]

theorem cutComment_sublist (text : Text) :
    ((cutComment text).1 ++ (cutComment text).2).Sublist text := by
  induction text with
  | nil => exact List.Sublist.slnil
  | cons first rest ih =>
      rw [cutComment_cons]
      split
      · exact (List.dropWhile_sublist Text.isBlank).cons first
      · exact ih.cons_cons first

theorem splitComment_sublist (text : Text) :
    ((splitComment text).1 ++ (splitComment text).2).Sublist text := by
  unfold splitComment
  split
  · rw [List.append_nil]
  · exact cutComment_sublist text

/-! ## What is spelled out -/

def directives : List (Char × Text) := [('=', "@mixin ".toList), ('+', "@include ".toList)]

def BeginsText (text : Text) : Prop := ∃ c ∈ text.head?, Text.isBlank c = false

/-- The statement `:name value`. -/
inductive NamesProperty : Text → Text → Text → Prop
  | mk {name gap value : Text} (hempty : name ≠ []) (hname : ∀ c ∈ name, isNameChar c = true)
      (hsome : gap ≠ []) (hgap : ∀ c ∈ gap, Text.isBlank c = true) (hvalue : BeginsText value) :
      NamesProperty (':' :: (name ++ (gap ++ value))) name value

/-- How a statement is spelled. -/
inductive SpelledOut : Text → Text → Prop
  | directive {sign : Char} {long gap rest : Text} (hsign : (sign, long) ∈ directives)
      (hgap : ∀ c ∈ gap, Text.isBlank c = true) (hrest : BeginsText rest) :
      SpelledOut (sign :: (gap ++ rest)) (long ++ rest)
  | property {statement name value : Text} (h : NamesProperty statement name value) :
      SpelledOut statement (name ++ ": ".toList ++ value)
  | sign {sign : Char} {long : Text} (hsign : (sign, long) ∈ directives) :
      SpelledOut [sign] [sign]
  | same {statement : Text} (hsign : ∀ item ∈ directives, statement.head? ≠ some item.1)
      (hproperty : ∀ name value, ¬ NamesProperty statement name value) :
      SpelledOut statement statement

theorem beginsText_trimStart {text : Text} (h : Text.trimStart text ≠ []) :
    BeginsText (Text.trimStart text) := by
  obtain ⟨first, rest, hfirst⟩ := List.exists_cons_of_ne_nil h
  have hhead : first ∈ (Text.trimStart text).head? := by simp [hfirst]
  exact ⟨first, hhead, Text.head_trimStart text first hhead⟩

theorem BeginsText.ne_nil {text : Text} (h : BeginsText text) : text ≠ [] := by
  obtain ⟨first, hfirst, -⟩ := h
  rintro rfl
  cases hfirst

theorem BeginsText.trimStart_append {gap text : Text} (h : BeginsText text)
    (hgap : ∀ c ∈ gap, Text.isBlank c = true) : Text.trimStart (gap ++ text) = text := by
  obtain ⟨first, hfirst, hblank⟩ := h
  refine Text.trimStart_append hgap fun c hc => ?_
  rwa [← Option.some.inj ((Option.mem_def.mp hfirst).symm.trans hc)]

def blankCodes : List Nat :=
  List.range' 9 5 ++ List.range' 28 5 ++ List.range' 0x2000 11 ++
    [0x85, 0xa0, 0x1680, 0x2028, 0x2029, 0x202f, 0x205f, 0x3000]

theorem toNat_mem_blankCodes {c : Char} (h : Text.isBlank c = true) : c.toNat ∈ blankCodes := by
  simp only [Text.isBlank, Bool.or_eq_true, Bool.and_eq_true, decide_eq_true_eq, beq_iff_eq] at h
  simp only [blankCodes, List.mem_append, List.mem_range'_1, List.mem_cons, List.not_mem_nil,
    or_false]
  omega

theorem isNameChar_eq_false_of_isBlank {c : Char} (h : Text.isBlank c = true) :
    isNameChar c = false := by
  have hblanks : ∀ code ∈ blankCodes, isNameChar (Char.ofNat code) = false := by decide +kernel
  rw [← Char.ofNat_toNat c]
  exact hblanks c.toNat (toNat_mem_blankCodes h)

theorem nameAndValue?_eq_some_iff {rest name value : Text} :
    nameAndValue? rest = some (name, value) ↔ NamesProperty (':' :: rest) name value := by
  constructor
  · intro h
    simp only [nameAndValue?] at h
    split at h
    · cases h
    · next hform =>
        obtain ⟨rfl, rfl⟩ := Prod.mk.inj (Option.some.inj h)
        simp only [Bool.or_eq_true, List.isEmpty_iff, beq_iff_eq, not_or] at hform
        obtain ⟨⟨hname, hvalue⟩, hlength⟩ := hform
        have hsplit : rest = rest.takeWhile isNameChar ++
            ((rest.dropWhile isNameChar).takeWhile Text.isBlank ++
              Text.trimStart (rest.dropWhile isNameChar)) := by
          rw [Text.trimStart, List.takeWhile_append_dropWhile, List.takeWhile_append_dropWhile]
        have hgap : (rest.dropWhile isNameChar).takeWhile Text.isBlank ≠ [] := by
          intro hnone
          have hsame : Text.trimStart (rest.dropWhile isNameChar) = rest.dropWhile isNameChar := by
            conv_rhs => rw [← List.takeWhile_append_dropWhile (p := Text.isBlank)
              (l := rest.dropWhile isNameChar), hnone, List.nil_append]
            rfl
          exact hlength (congrArg List.length hsame)
        rw [congrArg (List.cons ':') hsplit]
        exact .mk hname (fun c => List.mem_takeWhile_imp) hgap (fun c => List.mem_takeWhile_imp)
          (beginsText_trimStart hvalue)
  · rintro (@⟨_, gap, _, hempty, hname, hsome, hgap, hvalue⟩)
    obtain ⟨space, more, rfl⟩ := List.exists_cons_of_ne_nil hsome
    have hspace : isNameChar space = false :=
      isNameChar_eq_false_of_isBlank (hgap space List.mem_cons_self)
    have htake : (name ++ (space :: more ++ value)).takeWhile isNameChar = name := by
      simp [List.takeWhile_append_of_pos hname, hspace]
    have hdrop : (name ++ (space :: more ++ value)).dropWhile isNameChar =
        space :: more ++ value := by
      simp [List.dropWhile_append_of_pos hname, hspace]
    simp only [nameAndValue?, htake, hdrop, hvalue.trimStart_append hgap]
    simp [hempty, hvalue.ne_nil]
    omega

theorem spelledOut_directive {sign : Char} {long rest : Text} (hsign : (sign, long) ∈ directives)
    (hlast : ∀ c ∈ (sign :: rest).getLast?, Text.isBlank c = false) :
    SpelledOut (sign :: rest)
      (if (Text.trimStart rest).isEmpty then sign :: rest else long ++ Text.trimStart rest) := by
  have hsplit : rest.takeWhile Text.isBlank ++ Text.trimStart rest = rest :=
    List.takeWhile_append_dropWhile
  split
  · next hempty =>
      have hblank : ∀ c ∈ rest, Text.isBlank c = true :=
        List.dropWhile_eq_nil_iff.mp (List.isEmpty_iff.mp hempty)
      have hnone : rest = [] := by
        by_contra hsome
        have hend := hlast (rest.getLast hsome)
          (by simp [List.getLast?_cons, List.getLast?_eq_some_getLast hsome])
        simp [hblank _ (List.getLast_mem hsome)] at hend
      rw [hnone]
      exact .sign hsign
  · next hsome =>
      have hbegins := beginsText_trimStart (mt List.isEmpty_iff.mpr hsome)
      have hdirective := @SpelledOut.directive sign long (rest.takeWhile Text.isBlank) _ hsign
        (fun c => List.mem_takeWhile_imp) hbegins
      rwa [hsplit] at hdirective

theorem spelledOut_spellOut {statement : Text}
    (hlast : ∀ c ∈ statement.getLast?, Text.isBlank c = false) :
    SpelledOut statement (spellOut statement) := by
  unfold spellOut
  split
  · exact spelledOut_directive (.head _) hlast
  · exact spelledOut_directive (.tail _ (.head _)) hlast
  · next rest =>
      cases hproperty : nameAndValue? rest with
      | some property =>
          have hspelled := SpelledOut.property (nameAndValue?_eq_some_iff.mp hproperty)
          simpa using hspelled
      | none =>
          refine .same (by simp [directives]) fun name value h => ?_
          cases hproperty.symm.trans (nameAndValue?_eq_some_iff.mpr h)
  · next hdefinition hinclusion hproperty =>
      refine .same ?_ ?_
      · simp only [directives, List.mem_cons, List.not_mem_nil, or_false]
        rintro item (rfl | rfl) hhead
        · obtain ⟨rest, hrest⟩ := List.head?_eq_some_iff.mp hhead
          exact hdefinition rest hrest
        · obtain ⟨rest, hrest⟩ := List.head?_eq_some_iff.mp hhead
          exact hinclusion rest hrest
      · rintro name value ⟨⟩
        exact hproperty _ rfl

def BeginsWithSign (text : Text) : Prop :=
  ∃ item ∈ directives, (Text.trimStart text).head? = some item.1

theorem head?_long : ∀ item ∈ directives, item.2.head? = some '@' := by decide

theorem isLine_long : ∀ item ∈ directives, item.2.IsLine := by decide

theorem sign_not_written : ∀ item ∈ directives, some item.1 ∉ [some '/', some '*'] := by decide

theorem sign_ne_brace : ∀ item ∈ directives,
    some item.1 ≠ (Text.trimStart [Text.closeBrace]).head? := by
  decide

theorem sign_ne_at : ∀ item ∈ directives, item.1 ≠ '@' := by decide

theorem isNameChar_sign : ∀ item ∈ directives, isNameChar item.1 = false := by decide +kernel

theorem SpelledOut.head {statement spelled : Text} (h : SpelledOut statement spelled)
    (hbegins : BeginsText statement) :
    BeginsText spelled ∧
      ∀ item ∈ directives, spelled.head? = some item.1 → statement = [item.1] := by
  cases h with
  | @directive sign long gap rest hsign hgap hrest =>
      have hfirst : (long ++ rest).head? = some '@' := by
        rw [List.head?_append, head?_long _ hsign]
        rfl
      refine ⟨⟨'@', hfirst, rfl⟩, fun item hitem hhead => ?_⟩
      exact absurd (Option.some.inj (hhead.symm.trans hfirst)) (sign_ne_at item hitem)
  | @property _ name value hproperty =>
      obtain ⟨hempty, hname, -, -, -⟩ := hproperty
      obtain ⟨first, more, rfl⟩ := List.exists_cons_of_ne_nil hempty
      have hfirst : isNameChar first = true := hname first List.mem_cons_self
      refine ⟨⟨first, rfl, ?_⟩, fun item hitem hhead => ?_⟩
      · by_contra hblank
        rw [isNameChar_eq_false_of_isBlank (by simpa using hblank)] at hfirst
        cases hfirst
      · obtain rfl := Option.some.inj hhead
        cases hfirst.symm.trans (isNameChar_sign item hitem)
  | sign hsign =>
      refine ⟨hbegins, fun item hitem hhead => ?_⟩
      rw [Option.some.inj hhead]
  | same hsign hproperty =>
      exact ⟨hbegins, fun item hitem hhead => absurd hhead (hsign item hitem)⟩

theorem trimStart_padding (depth : Nat) (text : Text) :
    Text.trimStart (padding depth ++ text) = Text.trimStart text :=
  List.dropWhile_append_of_pos fun c hc => by
    rw [List.eq_of_mem_replicate hc]
    rfl

theorem SpelledOut.isLine {statement spelled : Text} (h : SpelledOut statement spelled)
    (hline : statement.IsLine) : spelled.IsLine := by
  cases h with
  | @directive sign long gap rest hsign hgap hrest =>
      exact List.forall_mem_append.mpr ⟨isLine_long _ hsign, fun c hc => hline c (by simp [hc])⟩
  | @property _ name value hproperty =>
      obtain ⟨-, -, -, -, -⟩ := hproperty
      have hcolon : Text.IsLine ": ".toList := by decide
      refine List.forall_mem_append.mpr ⟨List.forall_mem_append.mpr ⟨?_, hcolon⟩, ?_⟩
      · exact fun c hc => hline c (by simp [hc])
      · exact fun c hc => hline c (by simp [hc])
  | sign hsign => exact hline
  | same hsign hproperty => exact hline

/-! ## Outputs of code lines -/

/-- The output of a code line has its statement, spelled out, and the comment after it. -/
structure WrittenFrom (line : Line) (code : CodeOutput) : Prop where
  statement : SpelledOut (splitComment line.text).1 code.statement
  comment : code.comment = (splitComment line.text).2

theorem writtenFrom_codeOutput {line : Line}
    (hlast : ∀ c ∈ line.text.getLast?, Text.isBlank c = false) (depth : Nat) (deeper : Bool) :
    WrittenFrom line (codeOutput depth line deeper) where
  statement := spelledOut_spellOut (last_splitComment hlast)
  comment := rfl

theorem forall₂_writtenFrom {items : List Item} {nesting : Nesting} {output : List OutputLine}
    (hlast : ∀ line ∈ codeLines items, ∀ c ∈ line.text.getLast?, Text.isBlank c = false)
    (h : layOut nesting items = .ok output) :
    List.Forall₂ WrittenFrom (codeLines items) (codeOutputs output) := by
  induction items generalizing nesting output with
  | nil =>
      rw [← Except.ok.inj h, codeOutputs_closings]
      exact .nil
  | cons item rest ih =>
      cases item with
      | comment group =>
          obtain ⟨later, hlater, rfl⟩ := layOut_comment h
          rw [codeOutputs_append, codeOutputs_comments]
          exact ih hlast hlater
      | code line =>
          obtain ⟨depth, deeper, next, later, -, hlater, -, rfl⟩ := layOut_code_depth h
          obtain ⟨hline, hrest⟩ := List.forall_mem_cons.mp hlast
          rw [codeOutputs_append, codeOutputs_closings]
          exact .cons (writtenFrom_codeOutput hline depth deeper) (ih hrest hlater)

theorem isLine_padding (depth : Nat) : Text.IsLine (padding depth) := by
  intro c hc
  rw [List.eq_of_mem_replicate hc]
  rfl

theorem isLine_ending (ending : Ending) : ending.text.IsLine := by
  cases ending <;> decide

theorem WrittenFrom.isLine {line : Line} {code : CodeOutput} (h : WrittenFrom line code)
    (hline : line.text.IsLine) : code.text.IsLine := by
  have hparts := fun c hc => hline c ((splitComment_sublist line.text).subset hc)
  obtain ⟨hstatement, hcomment⟩ := List.forall_mem_append.mp hparts
  refine List.forall_mem_append.mpr ⟨List.forall_mem_append.mpr ⟨List.forall_mem_append.mpr
    ⟨isLine_padding _, h.statement.isLine hstatement⟩, isLine_ending _⟩, ?_⟩
  rw [← h.comment] at hcomment
  split
  · exact List.forall_mem_nil _
  · exact List.forall_mem_cons.mpr ⟨rfl, hcomment⟩

theorem WrittenFrom.head {line : Line} {code : CodeOutput} (h : WrittenFrom line code)
    (hbegins : BeginsText line.text) (hsign : BeginsWithSign code.text) :
    ∃ item ∈ directives, (splitComment line.text).1 = [item.1] := by
  obtain ⟨first, hfirst, hblank⟩ := hbegins
  have hstatement : BeginsText (splitComment line.text).1 := by
    refine ⟨first, ?_, hblank⟩
    rw [head?_splitComment fun c hc => ?_]
    · exact hfirst
    · rwa [← Option.some.inj ((Option.mem_def.mp hfirst).symm.trans hc)]
  obtain ⟨⟨written, hwritten, hplain⟩, hsame⟩ := h.statement.head hstatement
  obtain ⟨item, hitem, hhead⟩ := hsign
  refine ⟨item, hitem, hsame item hitem ?_⟩
  obtain ⟨more, hmore⟩ := List.head?_eq_some_iff.mp (Option.mem_def.mp hwritten)
  rw [CodeOutput.text, List.append_assoc, List.append_assoc, trimStart_padding, hmore,
    List.cons_append, Text.trimStart, List.dropWhile_cons_of_neg (by simp [hplain])] at hhead
  simpa [hmore] using hhead

theorem exists_group_of_mem_layOut {items : List Item} {nesting : Nesting}
    {output : List OutputLine} {depth : Nat} {text : Text} (h : layOut nesting items = .ok output)
    (hmem : .comment depth text ∈ output) :
    ∃ group, .comment group ∈ items ∧ text ∈ group.written := by
  induction items generalizing nesting output with
  | nil =>
      rw [← Except.ok.inj h] at hmem
      simp [closings] at hmem
  | cons item rest ih =>
      cases item with
      | comment group =>
          obtain ⟨later, hlater, rfl⟩ := layOut_comment h
          rcases List.mem_append.mp hmem with hwritten | hrest
          · obtain ⟨held, hheld, hsame⟩ := List.mem_map.mp hwritten
            exact ⟨group, .head _, (OutputLine.comment.inj hsame).2 ▸ hheld⟩
          · obtain ⟨other, hother, htext⟩ := ih hlater hrest
            exact ⟨other, .tail _ hother, htext⟩
      | code line =>
          obtain ⟨depth, deeper, next, later, -, hlater, -, rfl⟩ := layOut_code_depth h
          rcases List.mem_append.mp hmem with hclosing | hrest
          · simp [closings] at hclosing
          · rcases List.mem_cons.mp hrest with hcode | hmore
            · cases hcode
            · obtain ⟨group, hgroup, htext⟩ := ih hlater hmore
              exact ⟨group, .tail _ hgroup, htext⟩

theorem CommentGroup.forall_mem_written {group : CommentGroup} {P : Text → Prop}
    (hopening : P group.opening)
    (hmarked : ∀ mark ∈ ["//".toList, " *".toList], ∀ line ∈ group.continuation,
      P (marked mark line)) (hclosing : P " */".toList) :
    ∀ text ∈ group.written, P text := by
  unfold written
  split
  · exact List.forall_mem_cons.mpr ⟨hopening, List.forall_mem_map.mpr (hmarked _ (.head _))⟩
  · refine List.forall_mem_append.mpr ⟨List.forall_mem_cons.mpr
      ⟨hopening, List.forall_mem_map.mpr (hmarked _ (.tail _ (.head _)))⟩, ?_⟩
    split
    · exact List.forall_mem_nil _
    · exact List.forall_mem_singleton.mpr hclosing

theorem isLine_of_mem_linesOf {text : Text} {line : Line} (h : line ∈ linesOf text) :
    line.text.IsLine := by
  obtain ⟨raw, index, hraw, rfl⟩ := mem_linesOf_iff.mp h
  have hline := Text.isLine_of_mem_lines (List.mem_of_getElem? hraw)
  exact fun c hc => hline c ((Text.trim_isInfix raw).subset hc)

theorem isLine_of_mem_written {text written : Text} {group : CommentGroup}
    (hgroup : .comment group ∈ scan (linesOf text)) (h : written ∈ group.written) :
    written.IsLine := by
  obtain ⟨opening, run, hopening, hrun, -, rfl⟩ := exists_of_comment_mem_scan hgroup
  refine CommentGroup.forall_mem_written (isLine_of_mem_linesOf hopening) ?_ (by decide) _ h
  intro mark hmark line hline
  obtain ⟨source, hsource, rfl⟩ := exists_line_of_mem_continuation hline
  have hmarkLine : ∀ mark ∈ ["//".toList, " *".toList], Text.IsLine mark := by decide
  unfold CommentGroup.marked
  split
  · exact hmarkLine mark hmark
  · exact List.forall_mem_append.mpr ⟨hmarkLine mark hmark,
      List.forall_mem_cons.mpr ⟨rfl, isLine_of_mem_linesOf (hrun hsource)⟩⟩

theorem head_of_mem_written {text written : Text} {group : CommentGroup}
    (hgroup : .comment group ∈ scan (linesOf text)) (h : written ∈ group.written) :
    (Text.trimStart written).head? ∈ [some '/', some '*'] := by
  obtain ⟨opening, run, -, -, hopens, rfl⟩ := exists_of_comment_mem_scan hgroup
  refine CommentGroup.forall_mem_written
    (P := fun text => (Text.trimStart text).head? ∈ [some '/', some '*']) ?_ ?_ (by decide) _ h
  · rw [Line.opensComment, Bool.or_eq_true, List.isPrefixOf_iff_prefix,
      List.isPrefixOf_iff_prefix] at hopens
    have hslash : ['/'] <+: opening.text := by
      rcases hopens with hsilent | hblock
      · exact (by decide : ['/'] <+: "//".toList).trans hsilent
      · exact (by decide : ['/'] <+: "/*".toList).trans hblock
    obtain ⟨rest, hrest⟩ := hslash
    have hopening : opening.text = '/' :: rest := hrest.symm
    simp [CommentGroup.ofLines, hopening, Text.trimStart, Text.isBlank]
  · intro mark hmark line hline
    simp only [List.mem_cons, List.not_mem_nil, or_false] at hmark
    unfold CommentGroup.marked
    rcases hmark with rfl | rfl <;> split <;> simp [Text.trimStart, Text.isBlank]

/-! ## Conversion -/

theorem outputText_eq_ofLines (output : List OutputLine) :
    outputText output = Text.ofLines (output.map OutputLine.text) := by
  rw [outputText, Text.ofLines, List.flatMap_map]

theorem text_of_mem_codeLinesOf {text : Text} {line : Line} (h : line ∈ codeLinesOf text) :
    line.text.IsTrimmed ∧ line.text.IsLine ∧ BeginsText line.text := by
  have hmem := (codeLines_scan_sublist _).subset h
  obtain ⟨raw, index, -, hline⟩ := mem_linesOf_iff.mp hmem
  have htrimmed : line.text.IsTrimmed := by
    rw [hline]
    exact Text.isTrimmed_trim raw
  have hsome : line.text ≠ [] := List.isEmpty_eq_false_iff.mp (mem_codeLines_scan h).1
  obtain ⟨first, rest, hfirst⟩ := List.exists_cons_of_ne_nil hsome
  have hhead : first ∈ line.text.head? := by simp [hfirst]
  exact ⟨htrimmed, isLine_of_mem_linesOf hmem, first, hhead, htrimmed.head first hhead⟩

theorem exists_source_of_mem {α β : Type} {R : α → β → Prop} {sources : List α} {images : List β}
    (h : List.Forall₂ R sources images) {image : β} (hmem : image ∈ images) :
    ∃ source, (source, image) ∈ sources.zip images ∧ source ∈ sources ∧ R source image := by
  induction h with
  | nil => cases hmem
  | cons hfirst hrest ih =>
      rcases List.mem_cons.mp hmem with rfl | hlater
      · exact ⟨_, .head _, .head _, hfirst⟩
      · obtain ⟨source, hzip, hsource, hrelated⟩ := ih hlater
        exact ⟨source, .tail _ hzip, .tail _ hsource, hrelated⟩

/--
The lines of a result are the output lines of its text.  Each code line has its statement among
them with its shorthand spelled out, and none begins with the sign of a directive but that of a
code line whose statement is this sign.
-/
theorem convert_spellsOut {text result : Text} (h : convert text = .ok result) :
    ∃ output, layOut .empty (scan (linesOf text)) = .ok output ∧ result = outputText output ∧
      result.lines = output.map OutputLine.text ∧
      List.Forall₂ WrittenFrom (codeLinesOf text) (codeOutputs output) ∧
      ∀ emitted ∈ output, BeginsWithSign emitted.text →
        ∃ line code, (line, code) ∈ (codeLinesOf text).zip (codeOutputs output) ∧
          emitted = .code code ∧
          ∃ item ∈ directives, (splitComment line.text).1 = [item.1] := by
  obtain ⟨output, hlayout, hresult⟩ := exists_layOut_of_convert h
  have hwritten : List.Forall₂ WrittenFrom (codeLinesOf text) (codeOutputs output) :=
    forall₂_writtenFrom (fun line hline => (text_of_mem_codeLinesOf hline).1.last) hlayout
  have hcode : ∀ code, .code code ∈ output → ∃ line,
      (line, code) ∈ (codeLinesOf text).zip (codeOutputs output) ∧
        line ∈ codeLinesOf text ∧ WrittenFrom line code := fun code hcode =>
    exists_source_of_mem hwritten (List.mem_filterMap.mpr ⟨_, hcode, rfl⟩)
  refine ⟨output, hlayout, hresult, ?lines, hwritten, ?signs⟩
  case lines =>
    rw [hresult, outputText_eq_ofLines]
    refine Text.lines_ofLines (List.forall_mem_map.mpr fun emitted hemitted => ?_)
    cases emitted with
    | code code =>
        obtain ⟨line, -, hline, hfrom⟩ := hcode code hemitted
        exact hfrom.isLine (text_of_mem_codeLinesOf hline).2.1
    | comment depth written =>
        obtain ⟨group, hgroup, hmem⟩ := exists_group_of_mem_layOut hlayout hemitted
        exact List.forall_mem_append.mpr
          ⟨isLine_padding depth, isLine_of_mem_written hgroup hmem⟩
    | close depth =>
        exact List.forall_mem_append.mpr
          ⟨isLine_padding depth, List.forall_mem_singleton.mpr rfl⟩
  case signs =>
    intro emitted hemitted hsign
    cases emitted with
    | code code =>
        obtain ⟨line, hzip, hline, hfrom⟩ := hcode code hemitted
        exact ⟨line, code, hzip, rfl, hfrom.head (text_of_mem_codeLinesOf hline).2.2 hsign⟩
    | comment depth written =>
        obtain ⟨item, hitem, hhead⟩ := hsign
        obtain ⟨group, hgroup, hmem⟩ := exists_group_of_mem_layOut hlayout hemitted
        have hwritten := head_of_mem_written hgroup hmem
        rw [OutputLine.text, trimStart_padding] at hhead
        exact absurd (hhead ▸ hwritten) (sign_not_written item hitem)
    | close depth =>
        obtain ⟨item, hitem, hhead⟩ := hsign
        rw [OutputLine.text, trimStart_padding] at hhead
        exact absurd hhead.symm (sign_ne_brace item hitem)

def shorthandSheet : Text :=
  "=big\n  :font-size  2em\n+ // note\n.a\n  + big\n  :hover\n".toList

def spelledSheet : Text :=
  ("@mixin big \x7b\n  font-size: 2em;\n\x7d\n+ \x7b\x7d // note\n" ++
    ".a \x7b\n  @include big;\n  :hover \x7b\x7d\n\x7d\n").toList

theorem convert_shorthandSheet :
    convert shorthandSheet = .ok spelledSheet ∧
      ∃ output, layOut .empty (scan (linesOf shorthandSheet)) = .ok output ∧
        spelledSheet = outputText output ∧
        spelledSheet.lines = output.map OutputLine.text ∧
        List.Forall₂ WrittenFrom (codeLinesOf shorthandSheet) (codeOutputs output) ∧
        ∀ emitted ∈ output, BeginsWithSign emitted.text →
          ∃ line code, (line, code) ∈ (codeLinesOf shorthandSheet).zip (codeOutputs output) ∧
            emitted = .code code ∧
            ∃ item ∈ directives, (splitComment line.text).1 = [item.1] := by
  have h : convert shorthandSheet = .ok spelledSheet := by decide +kernel
  exact ⟨h, convert_spellsOut h⟩

end Stylesheets.Indented
