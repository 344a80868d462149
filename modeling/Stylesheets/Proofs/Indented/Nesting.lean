import Stylesheets.Proofs.Indented.Ancestry

/-!
# Nesting of the output

The layout of a text keeps a stack of open blocks.  Between two code lines this
stack holds exactly the blocks that the ancestry of the lines calls for, so the
code lines and closing lines of the output can be read off the indentations.
-/

namespace Stylesheets.Indented

def codeLinesOf (text : Text) : List Line := codeLines (scan (linesOf text))

/-- A code line at its depth, which opens a block only for the next code line. -/
def writtenAs (lines : List Line) (line : Line) (number : Nat) : CodeOutput :=
  codeOutput (depthOf lines number) line (IsAncestor lines number (number + 1))

def writtenWithClosings (lines : List Line) (line : Line) (number : Nat) : List OutputLine :=
  .code (writtenAs lines line number) ::
    (closedAfter lines number).map fun outer => .close (depthOf lines outer)

/-- The code lines and closing lines that the ancestry of some code lines calls for. -/
def bracketed (lines : List Line) : List OutputLine :=
  lines.zipIdx.flatMap fun (line, number) => writtenWithClosings lines line number

def blocksBefore (lines : List Line) : Nat → List Nat
  | 0 => []
  | number + 1 => blocksAfter lines number

def closedBefore (lines : List Line) : Nat → List Nat
  | 0 => []
  | number + 1 => closedAfter lines number

namespace Nesting

/-- The indentation that the next line of the innermost block must have. -/
def expected? (nesting : Nesting) : Option Nat :=
  match nesting.blocks with
  | [] => nesting.outerIndent
  | block :: _ => block.childIndent

theorem place?_eq_some {indent : Nat} {nesting placed : Nesting}
    (h : nesting.place? indent = some placed) :
    placed.expected? = some indent ∧
      placed.blocks.map Block.indent = nesting.blocks.map Block.indent ∧
      ∀ expected, nesting.expected? = some expected → indent = expected := by
  unfold place? at h
  split at h <;> split at h <;> grind [expected?]

theorem settle_eq_self {indent : Nat} {nesting : Nesting}
    (h : ∀ block ∈ nesting.blocks.head?, block.indent < indent) :
    nesting.settle indent = nesting := by
  obtain ⟨blocks, outer⟩ := nesting
  cases blocks with
  | nil => rfl
  | cons block around =>
      have hstays : ¬ indent ≤ block.indent := by
        have hblock := h block rfl
        omega
      simp [settle, hstays]

end Nesting

theorem nextIndent?_eq_head? (items : List Item) :
    nextIndent? items = (codeLines items).head?.map Line.indent := by
  induction items with
  | nil => rfl
  | cons item rest ih =>
      cases item with
      | code line => rfl
      | comment group => simpa [nextIndent?, codeLines] using ih

/-! ## The stack of open blocks -/

/-- The open blocks are those that the ancestry of the lines calls for before a line. -/
def Tracks (lines : List Line) (number : Nat) (nesting : Nesting) : Prop :=
  nesting.blocks.map Block.indent = (blocksBefore lines number).map (indentAt lines)

theorem Tracks.depth_eq {lines : List Line} {number : Nat} {nesting : Nesting}
    (h : Tracks lines number nesting) :
    nesting.depth = (blocksBefore lines number).length := by
  simpa [Nesting.depth] using congrArg List.length h

theorem Tracks.settle {lines : List Line} {number : Nat} {nesting : Nesting}
    (h : Tracks lines number nesting) (hlength : number < lines.length) :
    (nesting.settle (indentAt lines number)).blocks.map Block.indent =
      (ancestors lines number).map (indentAt lines) := by
  have hmap : (nesting.settle (indentAt lines number)).blocks.map Block.indent =
      (nesting.blocks.map Block.indent).dropWhile (indentAt lines number ≤ ·) := by
    rw [List.dropWhile_map]
    rfl
  rw [hmap, h, List.dropWhile_map]
  cases number with
  | zero => rfl
  | succ number =>
      congr 1
      exact dropWhile_blocksAfter hlength

theorem indent_lt_of_ancestors {lines : List Line} {number : Nat} {nesting : Nesting}
    (h : nesting.blocks.map Block.indent = (ancestors lines number).map (indentAt lines)) :
    ∀ block ∈ nesting.blocks, block.indent < indentAt lines number := by
  intro block hblock
  have hmem : block.indent ∈ (ancestors lines number).map (indentAt lines) := by
    rw [← h]
    exact List.mem_map_of_mem hblock
  obtain ⟨outer, houter, hindent⟩ := List.mem_map.mp hmem
  rw [← hindent]
  exact (mem_ancestors.mp houter).indentAt_lt

theorem not_goesDeeper_of_layOut {indent : Nat} {placed : Nesting} {rest : List Item}
    {output : List OutputLine} (hexpected : placed.expected? = some indent)
    (hinside : ∀ block ∈ placed.blocks.head?, block.indent < indent)
    (h : layOut placed rest = .ok output) : goesDeeper indent rest = false := by
  induction rest generalizing output with
  | nil => rfl
  | cons item rest ih =>
      cases item with
      | comment group =>
          cases hlater : layOut placed rest with
          | error fault => simp [layOut, hlater, bind, Except.bind] at h
          | ok later => exact ih hlater
      | code line =>
          simp only [goesDeeper, nextIndent?, decide_eq_false_iff_not]
          intro hdeeper
          have hkept : placed.settle line.indent = placed :=
            Nesting.settle_eq_self fun block hblock =>
              (hinside block hblock).trans hdeeper
          cases hplace : placed.place? line.indent with
          | none => simp [layOut, hkept, hplace] at h
          | some next =>
              have hsame := (Nesting.place?_eq_some hplace).2.2 indent hexpected
              omega

theorem isAncestor_succ_iff_goesDeeper {lines : List Line} {number : Nat} {line : Line}
    {rest : List Item} (hline : lines[number]? = some line)
    (hrest : codeLines rest = lines.drop (number + 1)) :
    IsAncestor lines number (number + 1) ↔ goesDeeper line.indent rest = true := by
  have hindent : indentAt lines number = line.indent := by simp [indentAt, hline]
  rw [goesDeeper, nextIndent?_eq_head?, hrest, List.head?_drop]
  cases hnext : lines[number + 1]? with
  | none =>
      have hlength : ¬ number + 1 < lines.length := by
        simpa using List.getElem?_eq_none_iff.mp hnext
      simpa using fun h => hlength h.2.1
  | some next =>
      obtain ⟨hlength, -⟩ := List.getElem?_eq_some_iff.mp hnext
      have hindentNext : indentAt lines (number + 1) = next.indent := by
        simp [indentAt, hnext]
      simp only [Option.map_some, decide_eq_true_eq]
      rw [← hindent, ← hindentNext]
      refine ⟨IsAncestor.indentAt_lt, fun hdeeper => ⟨by omega, hlength, ?_⟩⟩
      intro between hbetween hafter
      obtain rfl : between = number + 1 := by omega
      exact hdeeper

/-! ## The whole layout -/

theorem endingOf_eq_opensBlock_iff (statement : Text) (deeper : Bool) :
    endingOf statement deeper = .opensBlock ↔
      isContinued statement = false ∧ deeper = true := by
  unfold endingOf
  split
  · simp_all
  · cases deeper <;> grind

theorem closings_before (lines : List Line) (number : Nat) :
    closings (blocksBefore lines number).length (depthOf lines number) =
      (closedBefore lines number).map fun outer => .close (depthOf lines outer) := by
  cases number with
  | zero => rfl
  | succ number => exact closings_eq_map_closedAfter number

section CodeLine

variable {lines : List Line} {number : Nat} {nesting placed : Nesting} {line : Line}
  {rest : List Item} {output later : List OutputLine}

theorem goesDeeper_eq_isAncestor (hline : lines[number]? = some line)
    (hrest : codeLines rest = lines.drop (number + 1)) :
    goesDeeper line.indent rest = decide (IsAncestor lines number (number + 1)) := by
  rw [Bool.eq_iff_iff, decide_eq_true_eq]
  exact (isAncestor_succ_iff_goesDeeper hline hrest).symm

theorem layOut_cons_code (hline : lines[number]? = some line)
    (hrest : codeLines rest = lines.drop (number + 1))
    (htracks : Tracks lines number nesting)
    (h : layOut nesting (.code line :: rest) = .ok output) :
    ∃ placed later, placed.expected? = some line.indent ∧
      placed.blocks.map Block.indent = (ancestors lines number).map (indentAt lines) ∧
      layOut (if (writtenAs lines line number).ending = .opensBlock
        then placed.opening line.indent else placed) rest = .ok later ∧
      output = (closedBefore lines number).map (fun outer => .close (depthOf lines outer)) ++
        .code (writtenAs lines line number) :: later := by
  obtain ⟨hlength, -⟩ := List.getElem?_eq_some_iff.mp hline
  have hindent : indentAt lines number = line.indent := by simp [indentAt, hline]
  have hsettled := htracks.settle hlength
  rw [hindent] at hsettled
  cases hplace : (nesting.settle line.indent).place? line.indent with
  | none => simp [layOut, hplace] at h
  | some placed =>
      obtain ⟨hexpected, hblocks, -⟩ := Nesting.place?_eq_some hplace
      rw [hsettled] at hblocks
      have hdepth : placed.depth = depthOf lines number := by
        simpa [Nesting.depth, depthOf] using congrArg List.length hblocks
      have hsettledDepth : (nesting.settle line.indent).depth = depthOf lines number := by
        simpa [Nesting.depth, depthOf] using congrArg List.length hsettled
      simp only [layOut, hplace, hdepth, goesDeeper_eq_isAncestor hline hrest, hsettledDepth,
        htracks.depth_eq, closings_before] at h
      cases hlater : layOut (if (writtenAs lines line number).ending = .opensBlock
          then placed.opening line.indent else placed) rest with
      | error fault =>
          rw [writtenAs] at hlater
          simp [hlater, bind, Except.bind] at h
      | ok later =>
          refine ⟨placed, later, hexpected, hblocks, hlater, ?_⟩
          rw [writtenAs] at hlater ⊢
          simpa [hlater, bind, Except.bind, pure, Except.pure] using h.symm

theorem opensBlock_of_placed (hline : lines[number]? = some line)
    (hrest : codeLines rest = lines.drop (number + 1))
    (hexpected : placed.expected? = some line.indent)
    (hblocks : placed.blocks.map Block.indent =
      (ancestors lines number).map (indentAt lines))
    (h : layOut (if (writtenAs lines line number).ending = .opensBlock
      then placed.opening line.indent else placed) rest = .ok later) :
    (writtenAs lines line number).ending = .opensBlock ↔
      IsAncestor lines number (number + 1) := by
  have hindent : indentAt lines number = line.indent := by simp [indentAt, hline]
  constructor
  · intro hending
    simpa using ((endingOf_eq_opensBlock_iff _ _).mp hending).2
  · intro hancestor
    -- A line that opens no block although the next one is deeper leaves that one no place.
    by_contra hending
    rw [if_neg hending] at h
    have hinside : ∀ block ∈ placed.blocks.head?, block.indent < line.indent := by
      intro block hblock
      rw [← hindent]
      exact indent_lt_of_ancestors hblocks block (List.mem_of_mem_head? hblock)
    have hshallow := not_goesDeeper_of_layOut hexpected hinside h
    rw [goesDeeper_eq_isAncestor hline hrest] at hshallow
    exact absurd hancestor (by simpa using hshallow)

theorem tracks_placed (hline : lines[number]? = some line)
    (hblocks : placed.blocks.map Block.indent =
      (ancestors lines number).map (indentAt lines))
    (hopens : (writtenAs lines line number).ending = .opensBlock ↔
      IsAncestor lines number (number + 1)) :
    Tracks lines (number + 1) (if (writtenAs lines line number).ending = .opensBlock
      then placed.opening line.indent else placed) := by
  have hindent : indentAt lines number = line.indent := by simp [indentAt, hline]
  unfold Tracks
  split <;> rename_i hending
  · simp [Nesting.opening, blocksBefore, blocksAfter, hopens.mp hending, hblocks, hindent]
  · simp [blocksBefore, blocksAfter, mt hopens.mpr hending, hblocks]

theorem layOut_code (hline : lines[number]? = some line)
    (hrest : codeLines rest = lines.drop (number + 1))
    (htracks : Tracks lines number nesting)
    (h : layOut nesting (.code line :: rest) = .ok output) :
    ((writtenAs lines line number).ending = .opensBlock ↔
        IsAncestor lines number (number + 1)) ∧
      ∃ next later, Tracks lines (number + 1) next ∧ layOut next rest = .ok later ∧
        output = (closedBefore lines number).map (fun outer => .close (depthOf lines outer)) ++
          .code (writtenAs lines line number) :: later := by
  obtain ⟨placed, later, hexpected, hblocks, hlater, houtput⟩ :=
    layOut_cons_code hline hrest htracks h
  have hopens := opensBlock_of_placed hline hrest hexpected hblocks hlater
  exact ⟨hopens, _, later, tracks_placed hline hblocks hopens, hlater, houtput⟩

end CodeLine

theorem drop_of_codeLines_cons {lines : List Line} {number : Nat} {line : Line}
    {rest : List Item} (h : codeLines (.code line :: rest) = lines.drop number) :
    lines[number]? = some line ∧ codeLines rest = lines.drop (number + 1) := by
  have hcons : line :: codeLines rest = lines.drop number := h
  constructor
  · rw [← List.head?_drop, ← hcons]
    rfl
  · rw [← List.tail_drop, ← hcons]
    rfl

/-- The layout from some line on: what is not a comment is what the ancestry calls for. -/
theorem layOut_eq_bracketed {lines : List Line} {items : List Item} {number : Nat}
    {nesting : Nesting} {output : List OutputLine} (hnumber : number ≤ lines.length)
    (hitems : codeLines items = lines.drop number)
    (htracks : Tracks lines number nesting) (h : layOut nesting items = .ok output) :
    output.filter (fun line => !line.isComment) =
      (closedBefore lines number).map (fun outer => .close (depthOf lines outer)) ++
        ((lines.drop number).zipIdx number).flatMap fun (line, number) =>
          writtenWithClosings lines line number := by
  induction items generalizing number nesting output with
  | nil =>
      obtain rfl : number = lines.length := by
        have hempty : lines.drop number = [] := hitems.symm
        exact le_antisymm hnumber (List.drop_eq_nil_iff.mp hempty)
      have houtput : output = closings nesting.depth 0 := by
        simpa [layOut] using h.symm
      have hclosings := closings_before lines lines.length
      rw [depthOf_length, ← htracks.depth_eq, ← houtput] at hclosings
      rw [hclosings, List.filter_eq_self.mpr]
      · simp
      · simp [OutputLine.isComment]
  | cons item rest ih =>
      cases item with
      | comment group =>
          cases hlater : layOut nesting rest with
          | error fault => simp [layOut, hlater, bind, Except.bind] at h
          | ok later =>
              obtain rfl : output =
                  group.written.map (.comment nesting.depth) ++ later := by
                simpa [layOut, hlater, bind, Except.bind, pure, Except.pure] using h.symm
              rw [List.filter_append, ih hnumber hitems htracks hlater,
                List.filter_eq_nil_iff.mpr (by simp [OutputLine.isComment]), List.nil_append]
      | code line =>
          obtain ⟨hline, hrest⟩ := drop_of_codeLines_cons hitems
          obtain ⟨hlength, hget⟩ := List.getElem?_eq_some_iff.mp hline
          obtain ⟨-, next, later, hnext, hlater, rfl⟩ := layOut_code hline hrest htracks h
          have hfilter := ih (Nat.succ_le_of_lt hlength) hrest hnext hlater
          rw [List.drop_eq_getElem_cons hlength, hget, List.zipIdx_cons, List.flatMap_cons,
            List.filter_append, List.filter_cons_of_pos (by rfl), hfilter,
            List.filter_eq_self.mpr (by simp [OutputLine.isComment])]
          simp [writtenWithClosings, closedBefore]

theorem opensBlock_iff_isAncestor {lines : List Line} {items : List Item} {number : Nat}
    {nesting : Nesting} {output : List OutputLine}
    (hitems : codeLines items = lines.drop number)
    (htracks : Tracks lines number nesting) (h : layOut nesting items = .ok output)
    {index : Nat} {line : Line} (hindex : number ≤ index) (hline : lines[index]? = some line) :
    (writtenAs lines line index).ending = .opensBlock ↔
      IsAncestor lines index (index + 1) := by
  induction items generalizing number nesting output with
  | nil =>
      have hempty : lines.drop number = [] := hitems.symm
      have hlength := (List.getElem?_eq_some_iff.mp hline).1
      have hshort := List.drop_eq_nil_iff.mp hempty
      omega
  | cons item rest ih =>
      cases item with
      | comment group =>
          cases hlater : layOut nesting rest with
          | error fault => simp [layOut, hlater, bind, Except.bind] at h
          | ok later => exact ih hitems htracks hlater hindex
      | code first =>
          obtain ⟨hfirst, hrest⟩ := drop_of_codeLines_cons hitems
          obtain ⟨hopens, next, later, hnext, hlater, -⟩ := layOut_code hfirst hrest htracks h
          rcases Nat.eq_or_lt_of_le hindex with rfl | hlt
          · obtain rfl : first = line := Option.some.inj (hfirst.symm.trans hline)
            exact hopens
          · exact ih hrest hnext hlater hlt

/-- The output writes each code line at its depth and closes each block where it ends. -/
structure FollowsAncestry (lines : List Line) (output : List OutputLine) : Prop where
  written : output.filter (fun line => !line.isComment) = bracketed lines
  opens : ∀ number line, lines[number]? = some line →
    ((writtenAs lines line number).ending = .opensBlock ↔
      IsAncestor lines number (number + 1))
  closes : ∀ number, number < lines.length →
    depthOf lines (number + 1) + (closedAfter lines number).length =
      depthOf lines number + if IsAncestor lines number (number + 1) then 1 else 0

theorem layOut_followsAncestry {items : List Item} {output : List OutputLine}
    (h : layOut .empty items = .ok output) : FollowsAncestry (codeLines items) output := by
  have hitems : codeLines items = (codeLines items).drop 0 := rfl
  have htracks : Tracks (codeLines items) 0 .empty := rfl
  refine ⟨?_, fun number line hline => ?_, fun number _ => length_closedAfter number⟩
  · simpa [closedBefore, bracketed] using
      layOut_eq_bracketed (Nat.zero_le _) hitems htracks h
  · exact opensBlock_iff_isAncestor hitems htracks h (Nat.zero_le _) hline

/--
A text that can be converted is written along the ancestry of its code lines:
each of them once and in order, indented once for each ancestor, opening a block
exactly when it is an ancestor of the next one, and followed by one closing line
for each block that ends before the next one.
-/
theorem convert_followsAncestry {text result : Text} (h : convert text = .ok result) :
    ∃ output, layOut .empty (scan (linesOf text)) = .ok output ∧
      result = outputText output ∧ FollowsAncestry (codeLinesOf text) output := by
  cases hlayout : layOut .empty (scan (linesOf text)) with
  | error fault => simp [convert, hlayout, Except.map] at h
  | ok output =>
      refine ⟨output, rfl, ?_, layOut_followsAncestry hlayout⟩
      simpa [convert, hlayout, Except.map] using h.symm

def nestedSheet : Text :=
  "  h1,\n  h2\n      // note\n      .a\n        b: c\n  i\n".toList

def bracketedSheet : Text :=
  "h1,\nh2 \x7b\n  // note\n  .a \x7b\n    b: c;\n  \x7d\n\x7d\ni \x7b\x7d\n".toList

theorem convert_nestedSheet_followsAncestry :
    convert nestedSheet = .ok bracketedSheet ∧
      ∃ output, layOut .empty (scan (linesOf nestedSheet)) = .ok output ∧
        bracketedSheet = outputText output ∧
        FollowsAncestry (codeLinesOf nestedSheet) output := by
  have h : convert nestedSheet = .ok bracketedSheet := by decide +kernel
  exact ⟨h, convert_followsAncestry h⟩

end Stylesheets.Indented
