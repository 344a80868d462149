import Mathlib.Order.Monotone.Basic
import Stylesheets.Import.Content
import Stylesheets.Proofs.Indented.Scanning
import Stylesheets.Proofs.Text.Lines
import Stylesheets.Proofs.Text.Trimming

/-!
# Other widths of indentation

Indentations are compared with each other and with nothing else.  So a text and
one whose lines are indented by other widths, in the same order of widths, are
scanned into the same items but for these widths, and are laid out alike.
-/

namespace Stylesheets.Indented

variable (spread : Nat → Nat)

def Line.reindent (line : Line) : Line := { line with indent := spread line.indent }

def CommentGroup.reindent (group : CommentGroup) : CommentGroup :=
  { group with indent := spread group.indent }

def Item.reindent : Item → Item
  | .code line => .code (line.reindent spread)
  | .comment group => .comment (group.reindent spread)

def Block.reindent (block : Block) : Block :=
  ⟨spread block.indent, block.childIndent.map spread⟩

def Nesting.reindent (nesting : Nesting) : Nesting :=
  ⟨nesting.blocks.map (.reindent spread), nesting.outerIndent.map spread⟩

variable {spread}

theorem CommentGroup.reindent_ofLines (opening : Line) (run : List Line) :
    ofLines (opening.reindent spread) (run.map (.reindent spread)) =
      (ofLines opening run).reindent spread := by
  have htexts : Line.text ∘ Line.reindent spread = Line.text := rfl
  simp only [ofLines, reindent, List.map_map, htexts]
  rfl

theorem continuesComment_reindent (h : StrictMono spread) (indent : Nat) :
    Line.continuesComment (spread indent) ∘ Line.reindent spread =
      Line.continuesComment indent := by
  funext line
  simp only [Function.comp_apply, Line.continuesComment, Line.reindent, h.lt_iff_lt]
  rfl

theorem scan_reindent (h : StrictMono spread) (lines : List Line) :
    scan (lines.map (.reindent spread)) = (scan lines).map (.reindent spread) := by
  fun_induction scan lines with
  | case1 => simp [scan]
  | case2 line rest hblank ih =>
      have hsame : (line.reindent spread).isBlank = true := hblank
      rw [List.map_cons, scan, if_pos hsame, ih]
  | case3 line rest hblank hopens ih =>
      have hsame : ¬ (line.reindent spread).isBlank = true := hblank
      have hsameOpens : (line.reindent spread).opensComment = true := hopens
      have hindent : (line.reindent spread).indent = spread line.indent := rfl
      rw [List.map_cons, scan, if_neg hsame, if_pos hsameOpens, hindent, List.takeWhile_map,
        List.dropWhile_map, continuesComment_reindent h, CommentGroup.reindent_ofLines, ih]
      rfl
  | case4 line rest hblank hopens ih =>
      have hsame : ¬ (line.reindent spread).isBlank = true := hblank
      have hsameOpens : ¬ (line.reindent spread).opensComment = true := hopens
      rw [List.map_cons, scan, if_neg hsame, if_neg hsameOpens, ih]
      rfl

/-! ## Laying out -/

namespace Nesting

@[simp] theorem depth_reindent (nesting : Nesting) :
    (nesting.reindent spread).depth = nesting.depth := by
  simp [depth, reindent]

theorem settle_reindent (h : StrictMono spread) (indent : Nat) (nesting : Nesting) :
    (nesting.reindent spread).settle (spread indent) =
      (nesting.settle indent).reindent spread := by
  have hleaves : (fun block : Block => decide (spread indent ≤ block.indent)) ∘
      Block.reindent spread = fun block : Block => decide (indent ≤ block.indent) := by
    funext block
    simp [Block.reindent, h.le_iff_le]
  simp only [settle, reindent, List.dropWhile_map, hleaves]

theorem place?_reindent (h : StrictMono spread) (indent : Nat) (nesting : Nesting) :
    (nesting.reindent spread).place? (spread indent) =
      (nesting.place? indent).map (.reindent spread) := by
  obtain ⟨blocks, outerIndent⟩ := nesting
  cases blocks with
  | nil =>
      cases outerIndent with
      | none => rfl
      | some outer =>
          simp only [place?, reindent, List.map_nil, Option.map_some, h.injective.eq_iff]
          split <;> rfl
  | cons block around =>
      obtain ⟨blockIndent, childIndent⟩ := block
      cases childIndent with
      | none => rfl
      | some child =>
          simp only [place?, reindent, List.map_cons, Block.reindent, Option.map_some,
            h.injective.eq_iff]
          split <;> rfl

end Nesting

theorem nextIndent?_reindent (items : List Item) :
    nextIndent? (items.map (.reindent spread)) = (nextIndent? items).map spread := by
  induction items with
  | nil => rfl
  | cons item rest ih =>
      cases item with
      | code line => rfl
      | comment group => exact ih

theorem goesDeeper_reindent (h : StrictMono spread) (indent : Nat) (items : List Item) :
    goesDeeper (spread indent) (items.map (.reindent spread)) = goesDeeper indent items := by
  rw [goesDeeper, goesDeeper, nextIndent?_reindent]
  cases nextIndent? items with
  | none => rfl
  | some next => simp [h.lt_iff_lt]

/-- Neither the layout nor a fault in it holds anything of the widths. -/
theorem layOut_reindent (h : StrictMono spread) (nesting : Nesting) (items : List Item) :
    layOut (nesting.reindent spread) (items.map (.reindent spread)) = layOut nesting items := by
  induction items generalizing nesting with
  | nil => simp [layOut]
  | cons item rest ih =>
      cases item with
      | comment group =>
          have hwritten : (group.reindent spread).written = group.written := rfl
          simp only [List.map_cons, Item.reindent, layOut, ih, hwritten, Nesting.depth_reindent]
      | code line =>
          have hindent : (line.reindent spread).indent = spread line.indent := rfl
          have houtput : ∀ depth deeper, codeOutput depth (line.reindent spread) deeper =
              codeOutput depth line deeper := fun _ _ => rfl
          simp only [List.map_cons, Item.reindent, layOut, hindent, Nesting.settle_reindent h,
            Nesting.place?_reindent h, goesDeeper_reindent h, houtput, Nesting.depth_reindent]
          cases (nesting.settle line.indent).place? line.indent with
          | none => rfl
          | some placed =>
              have hopening : (placed.reindent spread).opening (spread line.indent) =
                  (placed.opening line.indent).reindent spread := rfl
              simp only [Option.map_some, Nesting.depth_reindent, hopening, ← apply_ite, ih]

/-- A line of a text by the width of its indentation and what stands after it. -/
def rawLine (row : Nat × Text) : Text := List.replicate row.1 ' ' ++ row.2

theorem columnAfter_spaces (count : Nat) (column : Nat) (text : Text) :
    columnAfter column (List.replicate count ' ' ++ text) = columnAfter (column + count) text := by
  induction count generalizing column with
  | zero => rfl
  | succ count ih =>
      rw [List.replicate_succ, List.cons_append, columnAfter, ih]
      congr 1
      omega

theorem columnAfter_of_head {text : Text} (h : ∀ c ∈ text.head?, Text.isBlank c = false)
    (column : Nat) : columnAfter column text = column := by
  cases text with
  | nil => simp [columnAfter]
  | cons c rest =>
      have hc := h c rfl
      rw [columnAfter]
      · rintro more hspace
        simp [(List.cons.inj hspace).1, Text.isBlank] at hc
      · rintro more htab
        simp [(List.cons.inj htab).1, Text.isBlank] at hc

theorem lineOf_rawLine {row : Nat × Text} (hempty : row.2 ≠ []) (htrim : row.2.trim = row.2)
    (index : Nat) : lineOf (rawLine row) index = ⟨index + 1, row.1, row.2⟩ := by
  have htrimmed := Text.isTrimmed_iff_trim_eq.mpr htrim
  have hspaces : ∀ c ∈ List.replicate row.1 ' ', Text.isBlank c = true := by
    intro c hc
    rw [List.eq_of_mem_replicate hc]
    rfl
  have hend : (rawLine row).trimEnd = rawLine row := by
    have hlast : ∀ c ∈ (rawLine row).getLast?, Text.isBlank c = false := by
      rw [rawLine, List.getLast?_append_of_ne_nil _ hempty]
      exact htrimmed.last
    simpa using @Text.trimEnd_append (rawLine row) [] (by simp) hlast
  have hindent : indentationOf (rawLine row) = row.1 := by
    rw [indentationOf, hend, rawLine, columnAfter_spaces, columnAfter_of_head htrimmed.head,
      Nat.zero_add]
  have htext : (rawLine row).trim = row.2 := by
    simpa [rawLine] using @Text.trim_append _ row.2 [] hspaces htrimmed (by simp)
  rw [lineOf, hindent, htext]

theorem linesOf_reindent {rows : List (Nat × Text)}
    (hrows : ∀ row ∈ rows, row.2 ≠ [] ∧ row.2.trim = row.2) {text other : Text}
    (htext : text.lines = rows.map rawLine)
    (hother : other.lines = (rows.map (Prod.map spread id)).map rawLine) :
    linesOf other = (linesOf text).map (.reindent spread) := by
  rw [linesOf_eq, linesOf_eq, htext, hother, List.map_map, List.zipIdx_map, List.zipIdx_map,
    List.map_map, List.map_map, List.map_map]
  refine List.map_congr_left fun ⟨row, index⟩ hrow => ?_
  obtain ⟨hempty, htrim⟩ := hrows row (List.fst_mem_of_mem_zipIdx hrow)
  have hwider : lineOf (rawLine (Prod.map spread id row)) index =
      ⟨index + 1, spread row.1, row.2⟩ :=
    @lineOf_rawLine (Prod.map spread id row) hempty htrim index
  change lineOf (rawLine (Prod.map spread id row)) index =
    (lineOf (rawLine row) index).reindent spread
  rw [hwider, lineOf_rawLine hempty htrim index]
  rfl

/--
Of the indentations of a text only the order matters.  Two texts whose lines
are the same but for the widths of their indentations, in the same order of
widths, are converted alike, or refused with the same fault.
-/
theorem converted_reindent (hspread : StrictMono spread) {rows : List (Nat × Text)}
    (hrows : ∀ row ∈ rows, row.2 ≠ [] ∧ row.2.trim = row.2 ∧ row.2.IsLine) :
    (∀ text other : Text, text.lines = rows.map rawLine →
      other.lines = (rows.map (Prod.map spread id)).map rawLine →
        Dialect.indented.converted other = Dialect.indented.converted text) ∧
      Dialect.indented.converted (.ofLines ((rows.map (Prod.map spread id)).map rawLine)) =
        Dialect.indented.converted (.ofLines (rows.map rawLine)) := by
  have halike : ∀ text other : Text, text.lines = rows.map rawLine →
      other.lines = (rows.map (Prod.map spread id)).map rawLine →
        Dialect.indented.converted other = Dialect.indented.converted text := by
    intro text other htext hother
    have hlines := linesOf_reindent (fun row hrow => ⟨(hrows row hrow).1, (hrows row hrow).2.1⟩)
      htext hother
    have hlayOut := layOut_reindent hspread .empty (scan (linesOf text))
    rw [← scan_reindent hspread, ← hlines] at hlayOut
    have hconvert : convert other = convert text := congrArg (Except.map outputText) hlayOut
    simp only [Dialect.converted, hconvert]
  have hraw : ∀ other : List (Nat × Text), (∀ row ∈ other, row.2.IsLine) →
      (Text.ofLines (other.map rawLine)).lines = other.map rawLine := by
    intro other hother
    refine Text.lines_ofLines fun raw hmem => ?_
    obtain ⟨row, hrow, rfl⟩ := List.mem_map.mp hmem
    intro c hc
    rcases List.mem_append.mp hc with hspace | htext
    · rw [List.eq_of_mem_replicate hspace]
      rfl
    · exact hother row hrow c htext
  refine ⟨halike, halike _ _ (hraw rows fun row hrow => (hrows row hrow).2.2) (hraw _ ?_)⟩
  intro row hrow
  obtain ⟨narrow, hnarrow, rfl⟩ := List.mem_map.mp hrow
  exact (hrows narrow hnarrow).2.2

def raggedRows : List (Nat × Text) :=
  [(0, ".a".toList), (6, "// note".toList), (7, "more".toList), (2, ".b".toList),
    (4, "c: d".toList), (3, "e: f".toList)]

def raggedSheet : Text :=
  ".a\n      // note\n       more\n  .b\n    c: d\n   e: f\n".toList

def wideSheet : Text :=
  (" .a\r\n             // note\r\n               more\r\n" ++
    "     .b\r\n         c: d\r\n       e: f").toList

theorem converted_raggedSheet :
    Dialect.indented.converted raggedSheet =
        .error (.evaluation (.indentation ⟨6, "e: f".toList⟩)) ∧
      Dialect.indented.converted wideSheet = Dialect.indented.converted raggedSheet := by
  have hfault : convert raggedSheet = .error ⟨6, "e: f".toList⟩ := by decide +kernel
  have hspread : StrictMono fun width : Nat => 2 * width + 1 := fun first second h => by
    simpa using h
  have hrows : ∀ row ∈ raggedRows, row.2 ≠ [] ∧ row.2.trim = row.2 ∧ row.2.IsLine := by
    decide +kernel
  refine ⟨by rw [Dialect.converted, hfault]; rfl, ?_⟩
  exact (converted_reindent hspread hrows).1 raggedSheet wideSheet (by decide +kernel)
    (by decide +kernel)

end Stylesheets.Indented
