import Stylesheets.Proofs.Indented.Nesting
import Stylesheets.Proofs.Indented.Scanning

/-!
# Texts that differ in one code line

Where a code line stands says how it is scanned: another line of the same
indentation that neither is blank nor opens a comment takes its place among the
items, and no other item changes.  If both lines open a block or neither does,
the layouts differ in the output of this line alone.
-/

namespace Stylesheets.Indented

variable {line other : Line}

theorem run_append {α : Type} {test : α → Bool} {items : List α} {item : α}
    (h : items.all test = true → test item = false) (more : List α) :
    (items ++ item :: more).takeWhile test = items.takeWhile test ∧
      (items ++ item :: more).dropWhile test = items.dropWhile test ++ item :: more := by
  induction items with
  | nil => simp [h rfl]
  | cons first rest ih =>
      cases hfirst : test first with
      | false => simp [hfirst]
      | true => simpa [hfirst] using ih (by simpa [hfirst] using h)

theorem codeLines_append (first second : List Item) :
    codeLines (first ++ second) = codeLines first ++ codeLines second :=
  List.filterMap_append

@[simp] theorem codeLines_cons_code (line : Line) (rest : List Item) :
    codeLines (.code line :: rest) = line :: codeLines rest := rfl

@[simp] theorem codeLines_cons_comment (group : CommentGroup) (rest : List Item) :
    codeLines (.comment group :: rest) = codeLines rest := rfl

theorem scan_cons_code (hblank : line.isBlank = false) (hopens : line.opensComment = false)
    (rest : List Line) : scan (line :: rest) = .code line :: scan rest := by
  simp [scan, hblank, hopens]

theorem scan_cons_comment (hblank : line.isBlank = false) (hopens : line.opensComment = true)
    (rest : List Line) :
    scan (line :: rest) =
      .comment (.ofLines line (rest.takeWhile (Line.continuesComment line.indent))) ::
        scan (rest.dropWhile (Line.continuesComment line.indent)) := by
  simp [scan, hblank, hopens]

theorem test_eq_false_of_mem {test : Line → Bool} {before after : List Line} (hafter : line ∉ after)
    (hcode : line ∈ codeLines (scan ((before ++ line :: after).dropWhile test)))
    (hall : before.all test = true) : test line = false := by
  by_contra hgoes
  rw [List.all_eq_true] at hall
  rw [List.dropWhile_append_of_pos hall, List.dropWhile_cons_of_pos (by simpa using hgoes)] at hcode
  exact hafter ((List.dropWhile_sublist _).subset ((codeLines_scan_sublist _).subset hcode))

theorem continuesComment_exchange (hindent : other.indent = line.indent)
    (hblank : other.isBlank = false) {indent : Nat}
    (h : line.continuesComment indent = false) : other.continuesComment indent = false := by
  simp only [Line.continuesComment, Bool.or_eq_false_iff] at h ⊢
  exact ⟨hblank, hindent ▸ h.2⟩

/-- A code line that occurs once may be exchanged where it stands. -/
theorem scan_exchange {before after : List Line} (hbefore : line ∉ before) (hafter : line ∉ after)
    (hcode : line ∈ codeLines (scan (before ++ line :: after)))
    (hindent : other.indent = line.indent) (hblank : other.isBlank = false)
    (hopens : other.opensComment = false) :
    ∃ earlier later, scan (before ++ line :: after) = earlier ++ .code line :: later ∧
      scan (before ++ other :: after) = earlier ++ .code other :: later := by
  -- The lines before the one exchanged are scanned in the same way, group by group.
  induction hlength : before.length using Nat.strong_induction_on generalizing before with
  | _ length ih =>
      cases before with
      | nil =>
          obtain ⟨hlineBlank, hlineOpens⟩ := mem_codeLines_scan hcode
          exact ⟨[], scan after, scan_cons_code hlineBlank hlineOpens after,
            scan_cons_code hblank hopens after⟩
      | cons first rest =>
          rw [List.mem_cons, not_or] at hbefore
          rw [List.cons_append] at hcode ⊢
          cases hfirst : first.isBlank with
          | true =>
              have hskip : ∀ lines, scan (first :: lines) = scan lines := fun lines => by
                simp [scan, hfirst]
              rw [hskip] at hcode ⊢
              rw [List.cons_append, hskip]
              exact ih rest.length (by simp [← hlength]) hbefore.2 hcode rfl
          | false =>
              cases hcomment : first.opensComment with
              | true =>
                  let continues := Line.continuesComment first.indent
                  rw [scan_cons_comment hfirst hcomment] at hcode ⊢
                  rw [List.cons_append, scan_cons_comment hfirst hcomment]
                  have hstops : rest.all continues = true → continues line = false :=
                    test_eq_false_of_mem hafter hcode
                  obtain ⟨htake, hdrop⟩ := run_append hstops after
                  obtain ⟨htakeOther, hdropOther⟩ := run_append (fun hall =>
                    continuesComment_exchange hindent hblank (hstops hall)) after
                  rw [codeLines_cons_comment, hdrop] at hcode
                  rw [htake, hdrop, htakeOther, hdropOther]
                  have hrest : (rest.dropWhile continues).Sublist rest := List.dropWhile_sublist _
                  obtain ⟨earlier, later, hscan, hscanOther⟩ :=
                    ih _ (by simpa [← hlength] using Nat.lt_succ_of_le hrest.length_le)
                      (fun hmem => hbefore.2 (hrest.subset hmem)) hcode rfl
                  exact ⟨_ :: earlier, later, by rw [hscan]; rfl, by rw [hscanOther]; rfl⟩
              | false =>
                  rw [scan_cons_code hfirst hcomment] at hcode ⊢
                  rw [List.cons_append, scan_cons_code hfirst hcomment]
                  have hrest : line ∈ codeLines (scan (rest ++ line :: after)) :=
                    (List.mem_cons.mp hcode).resolve_left hbefore.1
                  obtain ⟨earlier, later, hscan, hscanOther⟩ :=
                    ih rest.length (by simp [← hlength]) hbefore.2 hrest rfl
                  exact ⟨.code first :: earlier, later, by simp [hscan], by simp [hscanOther]⟩

/-! ## Laying out -/

def codeOutputs (output : List OutputLine) : List CodeOutput :=
  output.filterMap fun
    | .code line => some line
    | _ => none

theorem codeOutputs_append (first second : List OutputLine) :
    codeOutputs (first ++ second) = codeOutputs first ++ codeOutputs second :=
  List.filterMap_append

@[simp] theorem codeOutputs_cons_code (line : CodeOutput) (rest : List OutputLine) :
    codeOutputs (.code line :: rest) = line :: codeOutputs rest := rfl

@[simp] theorem codeOutputs_closings (fromDepth toDepth : Nat) :
    codeOutputs (closings fromDepth toDepth) = [] := by
  simp [codeOutputs, closings]

@[simp] theorem codeOutputs_comments (depth : Nat) (texts : List Text) :
    codeOutputs (texts.map (.comment depth)) = [] := by
  simp [codeOutputs]

theorem goesDeeper_exchange (hindent : other.indent = line.indent) (indent : Nat)
    (earlier later : List Item) :
    goesDeeper indent (earlier ++ .code other :: later) =
      goesDeeper indent (earlier ++ .code line :: later) := by
  simp only [goesDeeper, nextIndent?_eq_head?, codeLines_append]
  cases codeLines earlier with
  | nil => simp [codeLines, hindent]
  | cons first rest => rfl

theorem layOut_exchange (hindent : other.indent = line.indent)
    (hopens : ∀ depth deeper, (codeOutput depth other deeper).ending = .opensBlock ↔
      (codeOutput depth line deeper).ending = .opensBlock)
    (nesting : Nesting) (earlier later : List Item) :
    ((∃ fault, layOut nesting (earlier ++ .code line :: later) = .error fault) ∧
        ∃ fault, layOut nesting (earlier ++ .code other :: later) = .error fault) ∨
      ∃ first depth deeper rest, (codeOutputs first).length = (codeLines earlier).length ∧
        layOut nesting (earlier ++ .code line :: later) =
          .ok (first ++ .code (codeOutput depth line deeper) :: rest) ∧
        layOut nesting (earlier ++ .code other :: later) =
          .ok (first ++ .code (codeOutput depth other deeper) :: rest) := by
  induction earlier generalizing nesting with
  | nil =>
      simp only [List.nil_append, layOut, hindent, hopens]
      cases hplace : (nesting.settle line.indent).place? line.indent with
      | none => exact .inl ⟨⟨_, rfl⟩, ⟨_, rfl⟩⟩
      | some placed =>
          simp only
          cases layOut (if (codeOutput placed.depth line
              (goesDeeper line.indent later)).ending = .opensBlock
            then placed.opening line.indent else placed) later with
          | error fault => exact .inl ⟨⟨fault, rfl⟩, ⟨fault, rfl⟩⟩
          | ok rest => exact .inr ⟨_, _, _, rest, by simp [codeLines], rfl, rfl⟩
  | cons item earlier ih =>
      cases item with
      | comment group =>
          simp only [List.cons_append, layOut]
          rcases ih nesting with
            ⟨⟨fault, hline⟩, ⟨otherFault, hother⟩⟩ |
            ⟨first, depth, deeper, rest, hcount, hline, hother⟩
          · exact .inl ⟨⟨fault, by rw [hline]; rfl⟩, ⟨otherFault, by rw [hother]; rfl⟩⟩
          · refine .inr ⟨group.written.map (.comment nesting.depth) ++ first, depth, deeper, rest,
              ?_, ?_, ?_⟩
            · simpa [codeOutputs_append] using hcount
            · simp [hline, bind, Except.bind, pure, Except.pure]
            · simp [hother, bind, Except.bind, pure, Except.pure]
      | code start =>
          simp only [List.cons_append, layOut, goesDeeper_exchange hindent]
          cases hplace : (nesting.settle start.indent).place? start.indent with
          | none => exact .inl ⟨⟨_, rfl⟩, ⟨_, rfl⟩⟩
          | some placed =>
              simp only
              rcases ih (if (codeOutput placed.depth start (goesDeeper start.indent
                  (earlier ++ .code line :: later))).ending = .opensBlock
                then placed.opening start.indent else placed) with
                ⟨⟨fault, hline⟩, ⟨otherFault, hother⟩⟩ |
                ⟨first, depth, deeper, rest, hcount, hline, hother⟩
              · exact .inl ⟨⟨fault, by rw [hline]; rfl⟩, ⟨otherFault, by rw [hother]; rfl⟩⟩
              · refine .inr ⟨closings nesting.depth (nesting.settle start.indent).depth ++
                  .code (codeOutput placed.depth start (goesDeeper start.indent
                    (earlier ++ .code line :: later))) :: first, depth, deeper, rest, ?_, ?_, ?_⟩
                · simpa [codeOutputs_append] using hcount
                · simp [hline, bind, Except.bind, pure, Except.pure]
                · simp [hother, bind, Except.bind, pure, Except.pure]

end Stylesheets.Indented
