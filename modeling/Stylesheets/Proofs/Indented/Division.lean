import Mathlib.Data.List.Pairwise
import Mathlib.Data.List.Sort
import Stylesheets.Proofs.Indented.Scanning

/-!
# Division of a text into items

Scanning divides the lines of a text: it passes over blank lines, and every
other line is kept by one item and no other, as its text and at its number.
A comment group gathers the line that opens it and the longest run of lines
that are blank or indented deeper, up to the last one that is not blank.  No
other list of items divides the text so.
-/

namespace Stylesheets.Indented

/-- Numbers that count up by one from the first line's. -/
def AreNumbered (start : Nat) (lines : List Line) : Prop :=
  lines.map Line.number = List.range' start lines.length

theorem areNumbered_cons {start : Nat} {line : Line} {rest : List Line} :
    AreNumbered start (line :: rest) ↔ line.number = start ∧ AreNumbered (start + 1) rest := by
  simp [AreNumbered, List.range'_succ]

theorem areNumbered_append {start : Nat} {first second : List Line} :
    AreNumbered start (first ++ second) ↔
      AreNumbered start first ∧ AreNumbered (start + first.length) second := by
  induction first generalizing start with
  | nil => simp [AreNumbered]
  | cons line rest ih =>
      have hstart : start + (rest.length + 1) = start + 1 + rest.length := by omega
      rw [List.cons_append, areNumbered_cons, areNumbered_cons, ih, and_assoc, List.length_cons,
        hstart]

theorem areNumbered_linesOf (text : Text) : AreNumbered 1 (linesOf text) := by
  have hlength : (linesOf text).length = text.lines.length := by simp [linesOf]
  rw [AreNumbered, map_number_linesOf, hlength]

def Line.entry (line : Line) : Text × Nat := (line.text, line.number)

def hasText (entry : Text × Nat) : Bool := !entry.1.isEmpty

theorem map_entry_eq_zipIdx {start : Nat} {lines : List Line} (h : AreNumbered start lines) :
    lines.map Line.entry = (lines.map Line.text).zipIdx start := by
  induction lines generalizing start with
  | nil => rfl
  | cons line rest ih =>
      obtain ⟨hnumber, hrest⟩ := areNumbered_cons.mp h
      rw [List.map_cons, ih hrest, List.map_cons, List.zipIdx_cons, Line.entry, hnumber]

theorem map_entry_linesOf (text : Text) :
    (linesOf text).map Line.entry = (text.lines.map Text.trim).zipIdx 1 := by
  rw [map_entry_eq_zipIdx (areNumbered_linesOf text)]
  exact congrArg (List.zipIdx · 1) (map_text_linesFrom 0 text.lines)

theorem filter_hasText_blanks (start count : Nat) :
    ((List.replicate count ([] : Text)).zipIdx start).filter hasText = [] := by
  refine List.filter_eq_nil_iff.mpr fun entry hentry => ?_
  obtain ⟨text, number⟩ := entry
  obtain ⟨-, -, htext⟩ := List.mem_zipIdx hentry
  simp [hasText, htext]

namespace Item

def number : Item → Nat
  | .code line => line.number
  | .comment group => group.number

/-- The texts that an item keeps, with the numbers of their lines. -/
def entries : Item → List (Text × Nat)
  | .code line => [line.entry]
  | .comment group => (group.opening :: group.continuation).zipIdx group.number

theorem filter_entries_ofLines {opening : Line} {run : List Line}
    (h : AreNumbered (opening.number + 1) run) :
    (comment (.ofLines opening run)).entries.filter hasText =
      ((opening :: run).map Line.entry).filter hasText := by
  obtain ⟨⟨blanks, hrun⟩, -⟩ := CommentGroup.continuation_ofLines opening run
  have hkept : (run.map Line.entry).filter hasText =
      ((CommentGroup.ofLines opening run).continuation.zipIdx (opening.number + 1)).filter
        hasText := by
    rw [map_entry_eq_zipIdx h, hrun, List.zipIdx_append, List.filter_append,
      filter_hasText_blanks, List.append_nil]
  rw [List.map_cons, List.filter_cons, hkept, ← List.filter_cons]
  rfl

end Item

theorem filter_entries_scan {start : Nat} {lines : List Line} (h : AreNumbered start lines) :
    ((scan lines).flatMap Item.entries).filter hasText =
      (lines.map Line.entry).filter hasText := by
  fun_induction scan lines generalizing start with
  | case1 => rfl
  | case2 line rest hblank ih =>
      have hnoText : hasText line.entry ≠ true := by
        simpa [hasText, Line.entry, Line.isBlank] using hblank
      rw [ih (areNumbered_cons.mp h).2, List.map_cons, List.filter_cons_of_neg hnoText]
  | case3 line rest hblank hopens ih =>
      obtain ⟨hnumber, hrest⟩ := areNumbered_cons.mp h
      have hdivided := List.takeWhile_append_dropWhile
        (p := Line.continuesComment line.indent) (l := rest)
      -- After the run the numbers go on where its last one ends.
      rw [← hdivided, areNumbered_append, ← hnumber] at hrest
      rw [List.flatMap_cons, List.filter_append, Item.filter_entries_ofLines hrest.1, ih hrest.2,
        ← List.filter_append, ← List.map_append, List.cons_append, hdivided]
  | case4 line rest hblank hopens ih =>
      rw [List.flatMap_cons, List.filter_append, ih (areNumbered_cons.mp h).2,
        ← List.filter_append]
      rfl

theorem map_number_scan_sublist (lines : List Line) :
    ((scan lines).map Item.number).Sublist (lines.map Line.number) := by
  fun_induction scan lines with
  | case1 => exact .slnil
  | case2 line rest hblank ih => exact ih.cons line.number
  | case3 line rest hblank hopens ih =>
      exact (ih.trans ((List.dropWhile_sublist _).map Line.number)).cons_cons line.number
  | case4 line rest hblank hopens ih => exact ih.cons_cons line.number

theorem eq_of_mem_entries {items : List Item} {first second : Item} {entry : Text × Nat}
    (hnodup : ((items.flatMap Item.entries).filter hasText).Nodup) (htext : hasText entry = true)
    (hfirst : first ∈ items ∧ entry ∈ first.entries)
    (hsecond : second ∈ items ∧ entry ∈ second.entries) : first = second := by
  rw [List.filter_flatMap] at hnodup
  have hsymm : Std.Symm
      (Function.onFun List.Disjoint fun item : Item => item.entries.filter hasText) :=
    ⟨fun _ _ hdisjoint => List.disjoint_symm hdisjoint⟩
  by_contra hother
  have hdisjoint := (List.nodup_flatMap.mp hnodup).2.forall hfirst.1 hsecond.1 hother
  exact hdisjoint (List.mem_filter.mpr ⟨hfirst.2, htext⟩) (List.mem_filter.mpr ⟨hsecond.2, htext⟩)

theorem existsUnique_item {text raw : Text} {index : Nat} (h : text.lines[index]? = some raw)
    (hraw : raw.trim ≠ []) :
    ∃! item, item ∈ scan (linesOf text) ∧ (raw.trim, index + 1) ∈ item.entries := by
  have hkept := filter_entries_scan (areNumbered_linesOf text)
  have htext : hasText (raw.trim, index + 1) = true := by simpa [hasText] using hraw
  have hline : (raw.trim, index + 1) ∈ ((linesOf text).map Line.entry).filter hasText :=
    List.mem_filter.mpr
      ⟨List.mem_map.mpr ⟨lineOf raw index, mem_linesOf_iff.mpr ⟨raw, index, h, rfl⟩, rfl⟩, htext⟩
  have hnodup : (((linesOf text).map Line.entry).filter hasText).Nodup := by
    refine List.Nodup.filter _ (List.Nodup.of_map Prod.snd ?_)
    have hnumbers : Prod.snd ∘ Line.entry = Line.number := rfl
    rw [List.map_map, hnumbers, map_number_linesOf]
    exact List.nodup_range'
  rw [← hkept] at hline hnodup
  obtain ⟨item, hitem⟩ := List.mem_flatMap.mp (List.mem_filter.mp hline).1
  exact ⟨item, hitem, fun other hother => eq_of_mem_entries hnodup htext hother hitem⟩

/-! ## Items made of lines -/

def OpensComment (raw : Text) : Prop := "//".toList <+: raw.trim ∨ "/*".toList <+: raw.trim

theorem OpensComment.trim_ne_nil {raw : Text} (h : OpensComment raw) : raw.trim ≠ [] := by
  intro hempty
  simp [OpensComment, hempty] at h

theorem opensComment_lineOf_iff {raw : Text} {index : Nat} :
    (lineOf raw index).opensComment = true ↔ OpensComment raw := by
  rw [Line.opensComment, Bool.or_eq_true, List.isPrefixOf_iff_prefix, List.isPrefixOf_iff_prefix]
  rfl

theorem continuesComment_lineOf_iff {indent index : Nat} {raw : Text} :
    (lineOf raw index).continuesComment indent = true ↔
      raw.trim = [] ∨ indent < indentationOf raw := by
  rw [Line.continuesComment, Bool.or_eq_true, decide_eq_true_iff]
  exact or_congr List.isEmpty_iff Iff.rfl

/--
What a comment group holds of the lines of a text: the line that opens it and
the run that continues it, which ends where the next line does not.
-/
structure CommentGroup.Gathers (group : CommentGroup) (before : List Text) (raw : Text)
    (run after : List Text) : Prop where
  number : group.number = before.length + 1
  indent : group.indent = indentationOf raw
  opening : group.opening = raw.trim
  opens : OpensComment raw
  continues : ∀ next ∈ run, next.trim = [] ∨ indentationOf raw < indentationOf next
  stops : ∀ next ∈ after.head?, next.trim ≠ [] ∧ indentationOf next ≤ indentationOf raw
  continuation : ∃ blanks, run.map Text.trim = group.continuation ++ List.replicate blanks []
  ending : ∀ last ∈ group.continuation.getLast?, last ≠ []

/-- An item is a line that is not blank and opens no comment, or what a comment gathers. -/
def Item.IsMadeOf (raws : List Text) : Item → Prop
  | .code line => ∃ raw index, raws[index]? = some raw ∧ line = lineOf raw index ∧
      raw.trim ≠ [] ∧ ¬ OpensComment raw
  | .comment group => ∃ before raw run after, raws = before ++ raw :: (run ++ after) ∧
      group.Gathers before raw run after

theorem isMadeOf_of_code_mem_scan {text : Text} {line : Line}
    (h : .code line ∈ scan (linesOf text)) : (Item.code line).IsMadeOf text.lines := by
  have hcode : line ∈ codeLines (scan (linesOf text)) := List.mem_filterMap.mpr ⟨_, h, rfl⟩
  obtain ⟨raw, index, hraw, rfl⟩ := mem_linesOf_iff.mp ((codeLines_scan_sublist _).subset hcode)
  obtain ⟨hblank, hopens⟩ := mem_codeLines_scan hcode
  refine ⟨raw, index, hraw, rfl, ?_, ?_⟩
  · simpa [Line.isBlank, lineOf] using hblank
  · rwa [← opensComment_lineOf_iff, Bool.not_eq_true]

theorem isMadeOf_of_comment_mem_scan {text : Text} {group : CommentGroup}
    (h : .comment group ∈ scan (linesOf text)) : (Item.comment group).IsMadeOf text.lines := by
  obtain ⟨linesBefore, opening, linesRun, linesAfter, hlines, hopens, rfl, hcontinues, hstops⟩ :=
    exists_run_of_comment_mem_scan h
  -- The raw texts are cut where their lines are.
  obtain ⟨before, rest, hraws, rfl, hrest⟩ :=
    @exists_of_linesFrom_eq_append 0 text.lines _ _ hlines
  cases rest with
  | nil => cases hrest
  | cons raw rest =>
      obtain ⟨rfl, hlater⟩ := List.cons.inj hrest
      obtain ⟨run, after, rfl, rfl, rfl⟩ := exists_of_linesFrom_eq_append hlater.symm
      obtain ⟨hcontinuation, hending⟩ :=
        CommentGroup.continuation_ofLines (lineOf raw (0 + before.length))
          (linesFrom (0 + before.length + 1) run)
      rw [map_text_linesFrom] at hcontinuation
      refine ⟨before, raw, run, after, hraws, ?_⟩
      exact {
        number := by simp [CommentGroup.ofLines, lineOf]
        indent := rfl
        opening := rfl
        opens := opensComment_lineOf_iff.mp hopens
        continues := fun next hnext => by
          obtain ⟨index, hmem⟩ := exists_lineOf_mem_linesFrom hnext
          exact continuesComment_lineOf_iff.mp (hcontinues _ hmem)
        stops := fun next hnext => by
          obtain ⟨more, rfl⟩ := List.head?_eq_some_iff.mp hnext
          have hstop := hstops _ rfl
          rwa [← Bool.not_eq_true, continuesComment_lineOf_iff, not_or, not_lt] at hstop
        continuation := hcontinuation
        ending := hending }

theorem CommentGroup.Gathers.run_eq_takeWhile {group : CommentGroup} {before : List Text}
    {raw : Text} {run after : List Text} (h : group.Gathers before raw run after) :
    run = (run ++ after).takeWhile fun next =>
      decide (next.trim = [] ∨ indentationOf raw < indentationOf next) := by
  have hstops : (after.takeWhile fun next =>
      decide (next.trim = [] ∨ indentationOf raw < indentationOf next)) = [] := by
    cases after with
    | nil => rfl
    | cons next later =>
        obtain ⟨htext, hindent⟩ := h.stops next rfl
        exact List.takeWhile_cons_of_neg (by simp [htext, hindent])
  rw [List.takeWhile_append_of_pos (by simpa using h.continues), hstops, List.append_nil]

theorem dropBlanks_append {texts : List Text} (h : ∀ last ∈ texts.getLast?, last ≠ [])
    (blanks : Nat) :
    ((texts ++ List.replicate blanks []).reverse.dropWhile List.isEmpty).reverse = texts := by
  have hkept : texts.reverse.dropWhile List.isEmpty = texts.reverse := by
    cases hreverse : texts.reverse with
    | nil => rfl
    | cons last rest =>
        have hlast : texts.getLast? = some last := by
          rw [List.getLast?_eq_head?_reverse, hreverse]
          rfl
        exact List.dropWhile_cons_of_neg (by simpa using h last hlast)
  have hblanks : ∀ text ∈ List.replicate blanks ([] : Text), text.isEmpty = true := by
    simp +contextual
  rw [List.reverse_append, List.reverse_replicate, List.dropWhile_append_of_pos hblanks, hkept,
    List.reverse_reverse]

theorem CommentGroup.Gathers.unique {group other : CommentGroup} {before : List Text} {raw : Text}
    {run after : List Text} (h : group.Gathers before raw run after)
    (hother : other.Gathers before raw run after) : group = other := by
  obtain ⟨blanks, hrun⟩ := h.continuation
  obtain ⟨otherBlanks, hrunOther⟩ := hother.continuation
  have hcontinuation : group.continuation = other.continuation := by
    rw [← dropBlanks_append h.ending blanks, ← hrun, hrunOther, dropBlanks_append hother.ending]
  have hnumber := h.number.trans hother.number.symm
  have hindent := h.indent.trans hother.indent.symm
  have hopening := h.opening.trans hother.opening.symm
  cases group
  cases other
  rw [CommentGroup.mk.injEq]
  exact ⟨hnumber, hindent, hopening, hcontinuation⟩

theorem number_ne_of_code_of_comment {raws : List Text} {line : Line} {group : CommentGroup}
    (hline : (Item.code line).IsMadeOf raws) (hgroup : (Item.comment group).IsMadeOf raws) :
    line.number ≠ group.number := by
  obtain ⟨raw, index, hraw, rfl, -, hopens⟩ := hline
  obtain ⟨before, opening, run, after, rfl, hgathers⟩ := hgroup
  intro hnumber
  have hindex : index = before.length := by
    rw [hgathers.number] at hnumber
    exact Nat.succ.inj hnumber
  rw [hindex] at hraw
  obtain rfl : opening = raw := by simpa using hraw
  exact hopens hgathers.opens

theorem Item.IsMadeOf.eq_of_number_eq {raws : List Text} {item other : Item}
    (h : item.IsMadeOf raws) (hother : other.IsMadeOf raws) (hnumber : item.number = other.number) :
    item = other := by
  cases item with
  | code line =>
      cases other with
      | code otherLine =>
          obtain ⟨raw, index, hraw, rfl, -⟩ := h
          obtain ⟨otherRaw, otherIndex, hotherRaw, rfl, -⟩ := hother
          obtain rfl : index = otherIndex := Nat.succ.inj hnumber
          obtain rfl : raw = otherRaw := Option.some.inj (hraw.symm.trans hotherRaw)
          rfl
      | comment group => exact absurd hnumber (number_ne_of_code_of_comment h hother)
  | comment group =>
      cases other with
      | code line => exact absurd hnumber.symm (number_ne_of_code_of_comment hother h)
      | comment otherGroup =>
          obtain ⟨before, raw, run, after, hraws, hgathers⟩ := h
          obtain ⟨otherBefore, otherRaw, otherRun, otherAfter, hotherRaws, hotherGathers⟩ := hother
          have hlength : before.length = otherBefore.length := by
            have hnumbers := hgathers.number.symm.trans (hnumber.trans hotherGathers.number)
            exact Nat.succ.inj hnumbers
          obtain ⟨rfl, hrest⟩ := List.append_inj (hraws.symm.trans hotherRaws) hlength
          obtain ⟨rfl, hlater⟩ := List.cons.inj hrest
          obtain rfl : run = otherRun := by
            rw [hgathers.run_eq_takeWhile, hlater, ← hotherGathers.run_eq_takeWhile]
          obtain rfl := List.append_cancel_left hlater
          rw [hgathers.unique hotherGathers]

theorem Item.IsMadeOf.exists_line {raws : List Text} {item : Item} (h : item.IsMadeOf raws) :
    ∃ raw index, raws[index]? = some raw ∧ item.number = index + 1 ∧ raw.trim ≠ [] ∧
      (raw.trim, index + 1) ∈ item.entries := by
  cases item with
  | code line =>
      obtain ⟨raw, index, hraw, rfl, htext, -⟩ := h
      exact ⟨raw, index, hraw, rfl, htext, List.mem_singleton.mpr rfl⟩
  | comment group =>
      obtain ⟨before, raw, run, after, rfl, hgathers⟩ := h
      refine ⟨raw, before.length, by simp, hgathers.number, hgathers.opens.trim_ne_nil, ?_⟩
      rw [entries, List.zipIdx_cons, hgathers.opening, hgathers.number]
      exact List.mem_cons_self

theorem Item.number_le_of_mem_entries {item : Item} {text : Text} {number : Nat}
    (h : (text, number) ∈ item.entries) : item.number ≤ number := by
  cases item with
  | code line =>
      obtain ⟨-, rfl⟩ := Prod.mk.inj (List.mem_singleton.mp h)
      exact Nat.le_refl _
  | comment group => exact (List.mem_zipIdx h).1

/-! ## The division -/

/-- What it is to divide the lines of a text into items. -/
structure Divides (raws : List Text) (items : List Item) : Prop where
  once : ∀ raw index, raws[index]? = some raw → raw.trim ≠ [] →
    ∃! item, item ∈ items ∧ (raw.trim, index + 1) ∈ item.entries
  inOrder : (items.flatMap Item.entries).filter hasText =
    ((raws.map Text.trim).zipIdx 1).filter hasText
  numbered : (items.map Item.number).Pairwise (· < ·)
  made : ∀ item ∈ items, item.IsMadeOf raws

theorem divides_scan (text : Text) : Divides text.lines (scan (linesOf text)) where
  once _ _ := existsUnique_item
  inOrder := by
    rw [filter_entries_scan (areNumbered_linesOf text), map_entry_linesOf]
  numbered := by
    have hnumbers : ((linesOf text).map Line.number).Pairwise (· < ·) := by
      rw [map_number_linesOf]
      exact List.pairwise_lt_range'
    exact hnumbers.sublist (map_number_scan_sublist _)
  made item hitem := by
    cases item with
    | code line => exact isMadeOf_of_code_mem_scan hitem
    | comment group => exact isMadeOf_of_comment_mem_scan hitem

variable {raws : List Text} {items others : List Item}

theorem Divides.mem (h : Divides raws items) (hothers : Divides raws others) {item : Item}
    (hitem : item ∈ items) : item ∈ others := by
  -- By induction on the number: the line may lie in a group of the other division that begins
  -- earlier, and this group then is in both of them.
  induction hnumber : item.number using Nat.strong_induction_on
    generalizing items others item with
  | _ number ih =>
      obtain ⟨raw, index, hraw, hindex, htext, hentry⟩ := (h.made item hitem).exists_line
      obtain ⟨keeper, ⟨hkeeper, hkept⟩, -⟩ := hothers.once raw index hraw htext
      rcases Nat.lt_or_eq_of_le (Item.number_le_of_mem_entries hkept) with hearlier | hsame
      · have hmem : keeper ∈ items :=
          ih keeper.number (by omega) hothers h hkeeper rfl
        obtain rfl := (h.once raw index hraw htext).unique ⟨hmem, hkept⟩ ⟨hitem, hentry⟩
        omega
      · have hone := (hothers.made keeper hkeeper).eq_of_number_eq (h.made item hitem)
          (hsame.trans hindex.symm)
        rwa [← hone]

theorem Divides.unique (h : Divides raws items) (hothers : Divides raws others) :
    items = others := by
  let precedes (first second : Item) : Prop := first.number < second.number
  have hirrefl : Std.Irrefl precedes := ⟨fun item => Nat.lt_irrefl item.number⟩
  have hantisymm : Std.Antisymm precedes :=
    ⟨fun _ _ hbefore hafter => absurd hafter (Nat.lt_asymm hbefore)⟩
  have hitems : items.Pairwise precedes := List.pairwise_map.mp h.numbered
  have hsorted : others.Pairwise precedes := List.pairwise_map.mp hothers.numbered
  exact hitems.eq_of_mem_iff hsorted fun item => ⟨h.mem hothers, hothers.mem h⟩

/--
Scanning divides the lines of every text.  Each line that is not blank is kept
by exactly one item, nothing is lost, repeated or moved, and the items follow
one another by the numbers of their first lines.  A code item is a line that
opens no comment; a comment group is a line that does, with the longest run of
blank and deeper lines after it, trimmed, up to the last that is not blank.
There is no other division.
-/
theorem scan_dividesLines (text : Text) :
    Divides text.lines (scan (linesOf text)) ∧
      ∀ items, Divides text.lines items → items = scan (linesOf text) :=
  ⟨divides_scan text, fun _ hitems => hitems.unique (divides_scan text)⟩

example : scan (linesOf "// a\n\n \t// b  \n\nc: d".toList) =
    [.comment ⟨1, 0, "// a".toList, [[], "// b".toList]⟩, .code ⟨5, 0, "c: d".toList⟩] := by
  cbv

end Stylesheets.Indented
