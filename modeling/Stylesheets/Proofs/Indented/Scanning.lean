import Mathlib.Data.List.Nodup
import Mathlib.Data.List.TakeWhile
import Stylesheets.Indented.Item

/-!
# Code lines and the lines of a text

Scanning leaves lines out but changes none and keeps their order.  So a code
line is one of the lines of its text, with the number, the indentation and the
text that it has there, and no two code lines have the same number.  A comment
group comes from the line that opens it and the run of lines right after it.
-/

namespace Stylesheets.Indented

def lineOf (raw : Text) (index : Nat) : Line where
  number := index + 1
  indent := indentationOf raw
  text := raw.trim

theorem linesOf_eq (text : Text) :
    linesOf text = text.lines.zipIdx.map fun (raw, index) => lineOf raw index := rfl

theorem mem_linesOf_iff {text : Text} {line : Line} :
    line ∈ linesOf text ↔
      ∃ raw index, text.lines[index]? = some raw ∧ line = lineOf raw index := by
  rw [linesOf_eq, List.mem_map]
  constructor
  · rintro ⟨⟨raw, index⟩, hmem, rfl⟩
    exact ⟨raw, index, List.mem_zipIdx_iff_getElem?.mp hmem, rfl⟩
  · rintro ⟨raw, index, hraw, rfl⟩
    exact ⟨(raw, index), List.mem_zipIdx_iff_getElem?.mpr hraw, rfl⟩

theorem map_number_linesOf (text : Text) :
    (linesOf text).map Line.number = List.range' 1 text.lines.length := by
  rw [linesOf_eq, List.map_map]
  have hnumbers : Line.number ∘ (fun item : Text × Nat => lineOf item.1 item.2) =
      (1 + ·) ∘ Prod.snd := funext fun item => Nat.add_comm item.2 1
  rw [hnumbers, ← List.map_map, List.zipIdx_map_snd, List.map_add_range']

theorem codeLines_scan_sublist (lines : List Line) :
    (codeLines (scan lines)).Sublist lines := by
  fun_induction scan lines with
  | case1 => exact .slnil
  | case2 line rest hblank ih => exact ih.cons line
  | case3 line rest hblank hopens ih =>
      exact (ih.trans (List.dropWhile_sublist _)).cons line
  | case4 line rest hblank hopens ih => exact ih.cons_cons line

theorem mem_codeLines_scan {lines : List Line} {line : Line} (h : line ∈ codeLines (scan lines)) :
    line.isBlank = false ∧ line.opensComment = false := by
  fun_induction scan lines with
  | case1 => cases h
  | case2 first rest hblank ih => exact ih h
  | case3 first rest hblank hopens ih => exact ih h
  | case4 first rest hblank hopens ih =>
      rcases List.mem_cons.mp h with rfl | hrest
      · exact ⟨by simpa using hblank, by simpa using hopens⟩
      · exact ih hrest

theorem nodup_codeLines_scan (text : Text) : (codeLines (scan (linesOf text))).Nodup := by
  refine (List.Nodup.of_map Line.number ?_).sublist (codeLines_scan_sublist (linesOf text))
  rw [map_number_linesOf]
  exact List.nodup_range'

theorem exists_run_of_comment_mem_scan {lines : List Line} {group : CommentGroup}
    (h : .comment group ∈ scan lines) :
    ∃ before opening run after, lines = before ++ opening :: (run ++ after) ∧
      opening.opensComment = true ∧ group = .ofLines opening run ∧
      (∀ line ∈ run, line.continuesComment opening.indent = true) ∧
      ∀ line ∈ after.head?, line.continuesComment opening.indent = false := by
  fun_induction scan lines with
  | case1 => cases h
  | case2 line rest hblank ih =>
      obtain ⟨before, opening, run, after, hrest, hgroup⟩ := ih h
      exact ⟨line :: before, opening, run, after, by rw [hrest, List.cons_append], hgroup⟩
  | case3 line rest hblank hopens ih =>
      let continues := Line.continuesComment line.indent
      have hdivided : rest = rest.takeWhile continues ++ rest.dropWhile continues :=
        List.takeWhile_append_dropWhile.symm
      rcases List.mem_cons.mp h with hhead | hlater
      · refine ⟨[], line, _, _, congrArg (line :: ·) hdivided, hopens, Item.comment.inj hhead,
          fun _ => List.mem_takeWhile_imp, fun next hnext => ?_⟩
        have hstops := List.head?_dropWhile_not continues rest
        rw [Option.mem_def.mp hnext] at hstops
        simpa using hstops
      · obtain ⟨before, opening, run, after, hrest, hgroup⟩ := ih hlater
        refine ⟨line :: (rest.takeWhile continues ++ before), opening, run, after, ?_, hgroup⟩
        rw [List.cons_append, List.append_assoc, ← hrest]
        exact congrArg (line :: ·) hdivided
  | case4 line rest hblank hopens ih =>
      rcases List.mem_cons.mp h with hhead | hlater
      · cases hhead
      · obtain ⟨before, opening, run, after, hrest, hgroup⟩ := ih hlater
        exact ⟨line :: before, opening, run, after, by rw [hrest, List.cons_append], hgroup⟩

theorem exists_of_comment_mem_scan {lines : List Line} {group : CommentGroup}
    (h : .comment group ∈ scan lines) :
    ∃ opening run, opening ∈ lines ∧ run ⊆ lines ∧ opening.opensComment = true ∧
      group = .ofLines opening run := by
  obtain ⟨before, opening, run, after, rfl, hopens, hgroup, -⟩ := exists_run_of_comment_mem_scan h
  have hrun : run ⊆ before ++ opening :: (run ++ after) := fun line hline =>
    List.mem_append_right _ (.tail _ (List.mem_append_left _ hline))
  exact ⟨opening, run, List.mem_append_right _ (.head _), hrun, hopens, hgroup⟩

theorem CommentGroup.continuation_ofLines (opening : Line) (run : List Line) :
    (∃ blanks, run.map Line.text =
      (ofLines opening run).continuation ++ List.replicate blanks []) ∧
      ∀ last ∈ (ofLines opening run).continuation.getLast?, last ≠ [] := by
  let blanks := ((run.map Line.text).reverse.takeWhile List.isEmpty).reverse
  have hblanks : blanks = List.replicate blanks.length [] :=
    List.eq_replicate_of_mem fun text htext =>
      List.isEmpty_iff.mp (List.mem_takeWhile_imp (List.mem_reverse.mp htext))
  have hdivided : run.map Line.text = (ofLines opening run).continuation ++ blanks := by
    rw [ofLines, ← List.reverse_append, List.takeWhile_append_dropWhile, List.reverse_reverse]
  refine ⟨⟨blanks.length, by rw [← hblanks, hdivided]⟩, fun last hlast => ?_⟩
  have hnot := List.head?_dropWhile_not List.isEmpty (run.map Line.text).reverse
  rw [ofLines, List.getLast?_reverse, Option.mem_def] at hlast
  rw [hlast] at hnot
  simpa using hnot

theorem exists_line_of_mem_continuation {opening : Line} {run : List Line} {text : Text}
    (h : text ∈ (CommentGroup.ofLines opening run).continuation) :
    ∃ line ∈ run, line.text = text := by
  obtain ⟨⟨blanks, hrun⟩, -⟩ := CommentGroup.continuation_ofLines opening run
  refine List.mem_map.mp ?_
  rw [hrun]
  exact List.mem_append_left _ h

def linesFrom (start : Nat) (raws : List Text) : List Line :=
  (raws.zipIdx start).map fun (raw, index) => lineOf raw index

theorem number_of_mem_linesFrom {start : Nat} {raws : List Text} {line : Line}
    (h : line ∈ linesFrom start raws) :
    start < line.number ∧ line.number ≤ start + raws.length := by
  obtain ⟨⟨raw, index⟩, hmem, rfl⟩ := List.mem_map.mp h
  obtain ⟨hstart, hend, -⟩ := List.mem_zipIdx hmem
  exact ⟨Nat.lt_succ_of_le hstart, hend⟩

theorem map_text_linesFrom (start : Nat) (raws : List Text) :
    (linesFrom start raws).map Line.text = raws.map Text.trim := by
  have htext : Line.text ∘ (fun item : Text × Nat => lineOf item.1 item.2) =
      Text.trim ∘ Prod.fst := rfl
  rw [linesFrom, List.map_map, htext, ← List.map_map, List.zipIdx_map_fst]

theorem exists_of_linesFrom_eq_append {start : Nat} {raws : List Text} {before after : List Line}
    (h : linesFrom start raws = before ++ after) :
    ∃ first second, raws = first ++ second ∧ before = linesFrom start first ∧
      after = linesFrom (start + first.length) second := by
  obtain ⟨_, _, hzip, rfl, rfl⟩ := List.map_eq_append_iff.mp h
  obtain ⟨first, second, rfl, rfl, rfl⟩ := List.zipIdx_eq_append_iff.mp hzip
  exact ⟨first, second, rfl, rfl, rfl⟩

theorem exists_lineOf_mem_linesFrom {start : Nat} {raws : List Text} {raw : Text}
    (h : raw ∈ raws) : ∃ index, lineOf raw index ∈ linesFrom start raws := by
  obtain ⟨index, hindex⟩ := List.mem_iff_getElem?.mp h
  exact ⟨start + index, List.mem_map.mpr
    ⟨(raw, start + index), List.mk_add_mem_zipIdx_iff_getElem?.mpr hindex, rfl⟩⟩

theorem linesOf_eq_append {text raw : Text} {before after : List Text}
    (h : text.lines = before ++ raw :: after) :
    linesOf text = linesFrom 0 before ++ lineOf raw before.length ::
      linesFrom (before.length + 1) after := by
  rw [linesOf_eq, h, List.zipIdx_append, List.zipIdx_cons, List.map_append, List.map_cons,
    Nat.zero_add]
  rfl

end Stylesheets.Indented
