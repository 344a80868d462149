import Stylesheets.Text.Blank

/-!
# Lines of a text

Lines hold no line breaks, and any lines without them are the lines of a text:
of the one in which a line feed follows each of them.
-/

namespace Stylesheets.Text

def IsLine (text : Text) : Prop := ∀ c ∈ text, isLineBreak c = false

-- By name, as the search would find the decision over all characters first.
instance (text : Text) : Decidable text.IsLine :=
  List.decidableBAll _ text

def ofLines (lines : List Text) : Text := lines.flatMap fun line => line ++ ['\n']

theorem lines_cons {c : Char} (hc : isLineBreak c = false) (rest : Text) :
    lines (c :: rest) =
      match lines rest with
      | [] => [[c]]
      | line :: later => (c :: line) :: later := by
  rw [lines, hc]
  · rfl
  · rintro more rfl
    simp [isLineBreak] at hc

theorem lines_append_lineFeed {line : Text} (hline : line.IsLine) (rest : Text) :
    lines (line ++ '\n' :: rest) = line :: lines rest := by
  induction line with
  | nil => simp [lines, isLineBreak]
  | cons c line ih =>
      obtain ⟨hc, hlater⟩ := List.forall_mem_cons.mp hline
      rw [List.cons_append, lines_cons hc, ih hlater]

theorem lines_ofLines {raws : List Text} (hraws : ∀ raw ∈ raws, raw.IsLine) :
    (ofLines raws).lines = raws := by
  induction raws with
  | nil => rfl
  | cons raw rest ih =>
      obtain ⟨hraw, hrest⟩ := List.forall_mem_cons.mp hraws
      have hsplit : ofLines (raw :: rest) = raw ++ '\n' :: ofLines rest := by
        simp [ofLines]
      rw [hsplit, lines_append_lineFeed hraw, ih hrest]

theorem isLine_of_mem_lines {text line : Text} (h : line ∈ text.lines) : line.IsLine := by
  fun_induction lines text generalizing line with
  | case1 => cases h
  | case2 rest ih =>
      rcases List.mem_cons.mp h with rfl | hrest
      · exact fun c hc => absurd hc List.not_mem_nil
      · exact ih hrest
  | case3 c rest _ hc ih =>
      rcases List.mem_cons.mp h with rfl | hrest
      · exact fun c hc => absurd hc List.not_mem_nil
      · exact ih hrest
  | case4 c rest _ hc hnone ih =>
      obtain rfl := List.mem_singleton.mp h
      simpa [IsLine] using hc
  | case5 c rest _ hc first later hlines ih =>
      rw [hlines] at ih
      rcases List.mem_cons.mp h with rfl | hlater
      · exact List.forall_mem_cons.mpr ⟨by simpa using hc, ih List.mem_cons_self⟩
      · exact ih (List.mem_cons_of_mem _ hlater)

end Stylesheets.Text
