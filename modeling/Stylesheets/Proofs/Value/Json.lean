import Mathlib
import Stylesheets.Value.Json

/-!
# Reading JSON documents back

A reader for documents of texts, lists and tables, and for the escapes of JSON.
Every value that is made of these reads back from the document that is written
for it.
-/

namespace Stylesheets

namespace Text

theorem hexValue?_digitChar {digit : Nat} (h : digit < 16) :
    hexValue? digit.digitChar = some digit := by
  have hall : ∀ digit < 16, hexValue? (Nat.digitChar digit) = some digit := by decide
  exact hall digit h

theorem hexNumber?_toDigits (number : Nat) : hexNumber? (Nat.toDigits 16 number) = some number := by
  induction number using Nat.strong_induction_on with
  | _ number ih =>
      by_cases hsmall : number < 16
      · rw [Nat.toDigits_of_lt_base hsmall]
        simp [hexNumber?, hexValue?_digitChar hsmall]
      · have hrest : hexNumber? (Nat.toDigits 16 (number / 16)) = some (number / 16) :=
          ih _ (by omega)
        rw [Nat.toDigits_of_base_le (by decide) (by omega)]
        unfold hexNumber? at hrest ⊢
        rw [List.foldlM_append, hrest]
        simp [hexValue?_digitChar (Nat.mod_lt number (by decide : 0 < 16))]
        omega

theorem hexNumber?_replicate (count : Nat) (digits : Text) :
    hexNumber? (List.replicate count '0' ++ digits) = hexNumber? digits := by
  induction count with
  | zero => rfl
  | succ count ih => rw [← ih]; rfl

theorem hexNumber?_ofHex (width number : Nat) : hexNumber? (ofHex width number) = some number := by
  rw [ofHex, hexNumber?_replicate, hexNumber?_toDigits]

theorem length_ofHex {width number : Nat} (hwidth : 0 < width) (h : number < 16 ^ width) :
    (ofHex width number).length = width := by
  have hdigits := (Nat.length_toDigits_le_iff (by decide) hwidth).mpr h
  simp only [ofHex, List.length_append, List.length_replicate]
  omega

end Text

/-! ## The reader -/

namespace Json

def isBlank (c : Char) : Bool := c == ' ' || c == '\n' || c == '\r' || c == '\t'

def skipBlanks (text : Text) : Text := text.dropWhile isBlank

def shortEscapes : List (Char × Char) := [
  ('"', '"'), ('\\', '\\'), ('/', '/'), ('b', '\x08'), ('f', '\x0c'), ('n', '\n'), ('r', '\r'),
  ('t', '\t')]

def unit? (text : Text) : Option (Nat × Text) :=
  if text.length < 4 then none
  else (Text.hexNumber? (text.take 4)).map fun unit => (unit, text.drop 4)

def isHighSurrogate (unit : Nat) : Bool := 0xd800 ≤ unit && unit < 0xdc00

def isLowSurrogate (unit : Nat) : Bool := 0xdc00 ≤ unit && unit < 0xe000

def escapedUnit? (text : Text) : Option (Char × Text) := do
  let (unit, rest) ← unit? text
  if isHighSurrogate unit then
    match rest with
    | '\\' :: 'u' :: digits =>
      let (second, rest) ← unit? digits
      if isLowSurrogate second then
        return (Char.ofNat (0x10000 + (unit - 0xd800) * 0x400 + (second - 0xdc00)), rest)
      else none
    | _ => none
  else if isLowSurrogate unit then none
  else return (Char.ofNat unit, rest)

def character? : Text → Option (Char × Text)
  | '\\' :: 'u' :: digits => escapedUnit? digits
  | '\\' :: name :: rest => (shortEscapes.lookup name).map fun c => (c, rest)
  | c :: rest => if c < ' ' ∨ c = '\\' then none else some (c, rest)
  | [] => none

def characters? : Nat → Text → Option (Text × Text)
  | 0, _ => none
  | fuel + 1, text =>
    match text with
    | '"' :: rest => some ([], rest)
    | _ => do
      let (c, rest) ← character? text
      let (others, rest) ← characters? fuel rest
      return (c :: others, rest)

def key? (text : Text) : Option (Text × Text) :=
  match skipBlanks text with
  | '"' :: rest => do
    let (key, rest) ← characters? rest.length rest
    match skipBlanks rest with
    | ':' :: rest => return (key, rest)
    | _ => none
  | _ => none

mutual

def value? : Nat → Text → Option (Value × Text)
  | 0, _ => none
  | fuel + 1, text =>
    match skipBlanks text with
    | '"' :: rest =>
      (characters? rest.length rest).map fun (characters, rest) => (.text characters, rest)
    | '[' :: rest =>
      match skipBlanks rest with
      | ']' :: rest => some (.list [], rest)
      | _ => do
        let (item, rest) ← value? fuel rest
        let (others, rest) ← items? fuel rest
        return (.list (item :: others), rest)
    | '\x7b' :: rest =>
      match skipBlanks rest with
      | '\x7d' :: rest => some (.table [], rest)
      | _ => do
        let (key, rest) ← key? rest
        let (item, rest) ← value? fuel rest
        let (others, rest) ← entries? fuel rest
        return (.table ((key, item) :: others), rest)
    | _ => none

def items? : Nat → Text → Option (List Value × Text)
  | 0, _ => none
  | fuel + 1, text =>
    match skipBlanks text with
    | ']' :: rest => some ([], rest)
    | ',' :: rest => do
      let (item, rest) ← value? fuel rest
      let (others, rest) ← items? fuel rest
      return (item :: others, rest)
    | _ => none

def entries? : Nat → Text → Option (Table × Text)
  | 0, _ => none
  | fuel + 1, text =>
    match skipBlanks text with
    | '\x7d' :: rest => some ([], rest)
    | ',' :: rest => do
      let (key, rest) ← key? rest
      let (item, rest) ← value? fuel rest
      let (others, rest) ← entries? fuel rest
      return ((key, item) :: others, rest)
    | _ => none

end

/-- The value of a document, after which only blanks may follow. -/
def read? (text : Text) : Option Value := do
  let (value, rest) ← value? text.length text
  if (skipBlanks rest).isEmpty then return value else none

/-! ## Texts read back -/

theorem unit?_ofHex (unit : Nat) (h : unit < 0x10000) (rest : Text) :
    unit? (Text.ofHex 4 unit ++ rest) = some (unit, rest) := by
  have hlength : (Text.ofHex 4 unit).length = 4 := Text.length_ofHex (by decide) h
  have hlong : ¬ (Text.ofHex 4 unit ++ rest).length < 4 := by
    rw [List.length_append, hlength]
    omega
  rw [unit?, if_neg hlong, List.take_left' hlength, List.drop_left' hlength, Text.hexNumber?_ofHex]
  rfl

theorem toNat_lt (c : Char) : c.toNat < 0xd800 ∨ 0xdfff < c.toNat ∧ c.toNat < 0x110000 :=
  c.valid

theorem character?_escapeUnit (unit : Nat) (rest : Text) :
    character? (Text.escapeUnit unit ++ rest) = escapedUnit? (Text.ofHex 4 unit ++ rest) := rfl

theorem character?_unit {unit : Nat} (h : unit < 0xd800 ∨ 0xdfff < unit ∧ unit < 0x10000)
    (rest : Text) :
    character? (Text.escapeUnit unit ++ rest) = some (Char.ofNat unit, rest) := by
  have hhigh : isHighSurrogate unit = false := by simp [isHighSurrogate]; omega
  have hlow : isLowSurrogate unit = false := by simp [isLowSurrogate]; omega
  have hread := unit?_ofHex unit (by omega) rest
  simp [character?_escapeUnit, escapedUnit?, hread, hhigh, hlow]

theorem character?_pair {high low : Nat} (hhigh : 0xd800 ≤ high ∧ high < 0xdc00)
    (hlow : 0xdc00 ≤ low ∧ low < 0xe000) (rest : Text) :
    character? (Text.escapeUnit high ++ (Text.escapeUnit low ++ rest)) =
      some (Char.ofNat (0x10000 + (high - 0xd800) * 0x400 + (low - 0xdc00)), rest) := by
  have hfirst : isHighSurrogate high = true := by simpa [isHighSurrogate] using hhigh
  have hsecond : isLowSurrogate low = true := by simpa [isLowSurrogate] using hlow
  have hread := unit?_ofHex high (by omega) (Text.escapeUnit low ++ rest)
  have hagain := unit?_ofHex low (by omega) rest
  rw [character?_escapeUnit, escapedUnit?, hread]
  simp only [hfirst, Option.bind_eq_bind, Option.bind_some, if_true]
  change (unit? (Text.ofHex 4 low ++ rest)).bind _ = _
  rw [hagain]
  simp [hsecond]

theorem character?_plain {c : Char} (hspace : ' ' ≤ c) (hescape : c ≠ '\\') (rest : Text) :
    character? (c :: rest) = some (c, rest) := by
  have hcontrol : ¬ c < ' ' := not_lt.mpr hspace
  unfold character?
  split
  · next heq => exact absurd (List.cons.inj heq).1 hescape
  · next heq => exact absurd (List.cons.inj heq).1 hescape
  · next heq =>
      obtain ⟨rfl, rfl⟩ := List.cons.inj heq
      rw [if_neg (not_or.mpr ⟨hcontrol, hescape⟩)]
  · next heq => cases heq

theorem character?_escapeForReport (c : Char) (rest : Text) :
    character? (Text.escapeForReport c ++ rest) = some (c, rest) := by
  unfold Text.escapeForReport
  split_ifs with hquote hfeed hreturn htab hbackspace hform hplain hunit
  · rcases hquote with rfl | rfl <;> rfl
  · subst hfeed; rfl
  · subst hreturn; rfl
  · subst htab; rfl
  · obtain rfl : c = '\x08' := Char.toNat_inj.mp hbackspace
    rfl
  · obtain rfl : c = '\x0c' := Char.toNat_inj.mp hform
    rfl
  · exact character?_plain hplain.1 (fun heq => hquote (.inr heq)) rest
  · have hvalid := toNat_lt c
    rw [character?_unit (by omega), Char.ofNat_toNat]
  · have hvalid := toNat_lt c
    rw [List.append_assoc, character?_pair (by omega) (by omega)]
    have hsum : 0x10000 + (0xd800 + (c.toNat - 0x10000) / 0x400 - 0xd800) * 0x400 +
        (0xdc00 + (c.toNat - 0x10000) % 0x400 - 0xdc00) = c.toNat := by
      omega
    rw [hsum, Char.ofNat_toNat]

theorem exists_escapeForReport_eq_cons (c : Char) :
    ∃ first rest, Text.escapeForReport c = first :: rest ∧ first ≠ '"' := by
  have hunit : ∀ unit (rest : Text), Text.escapeUnit unit ++ rest =
      '\\' :: 'u' :: (Text.ofHex 4 unit ++ rest) := fun _ _ => rfl
  unfold Text.escapeForReport
  split_ifs with hquote hfeed hreturn htab hbackspace hform hplain
  · exact ⟨'\\', _, rfl, by decide⟩
  · exact ⟨'\\', _, rfl, by decide⟩
  · exact ⟨'\\', _, rfl, by decide⟩
  · exact ⟨'\\', _, rfl, by decide⟩
  · exact ⟨'\\', _, rfl, by decide⟩
  · exact ⟨'\\', _, rfl, by decide⟩
  · exact ⟨c, [], rfl, fun heq => hquote (.inl heq)⟩
  · exact ⟨'\\', _, rfl, by decide⟩
  · exact ⟨'\\', _, hunit _ _, by decide⟩

theorem characters?_cons (c : Char) (fuel : Nat) (rest : Text) :
    characters? (fuel + 1) (Text.escapeForReport c ++ rest) =
      (characters? fuel rest).map fun (others, left) => (c :: others, left) := by
  obtain ⟨first, more, hescape, hquote⟩ := exists_escapeForReport_eq_cons c
  have hread := character?_escapeForReport c rest
  rw [hescape, List.cons_append] at hread ⊢
  rw [characters?, hread]
  · simp only [Option.bind_eq_bind, Option.bind_some]
    cases characters? fuel rest <;> rfl
  · intro closed heq
    exact hquote (List.cons.inj heq).1

theorem characters?_flatMap (text rest : Text) {fuel : Nat} (hfuel : text.length < fuel) :
    characters? fuel (text.flatMap Text.escapeForReport ++ '"' :: rest) = some (text, rest) := by
  obtain ⟨left, rfl⟩ : ∃ left, fuel = left + 1 := ⟨fuel - 1, by omega⟩
  induction text generalizing left with
  | nil => rfl
  | cons c others ih =>
      obtain ⟨more, rfl⟩ : ∃ more, left = more + 1 := ⟨left - 1, by grind⟩
      rw [List.flatMap_cons, List.append_assoc, characters?_cons, ih more (by grind)]
      rfl

theorem length_le_flatMap (text : Text) :
    text.length ≤ (text.flatMap Text.escapeForReport).length := by
  induction text with
  | nil => rfl
  | cons c others ih =>
      obtain ⟨first, more, hescape, -⟩ := exists_escapeForReport_eq_cons c
      simp only [List.flatMap_cons, List.length_append, List.length_cons, hescape]
      omega

theorem characters?_quoted (text rest : Text) :
    characters? (text.flatMap Text.escapeForReport ++ '"' :: rest).length
        (text.flatMap Text.escapeForReport ++ '"' :: rest) = some (text, rest) := by
  have hlength := length_le_flatMap text
  refine characters?_flatMap text rest ?_
  simp only [List.length_append, List.length_cons]
  omega

/-! ## Values read back -/

theorem skipBlanks_newLine (depth : Nat) (rest : Text) :
    skipBlanks (Value.newLine depth ++ rest) = skipBlanks rest := by
  have hreplicate : ∀ count, skipBlanks (List.replicate count ' ' ++ rest) = skipBlanks rest := by
    intro count
    induction count with
    | zero => rfl
    | succ count ih => exact ih
  exact hreplicate _

theorem skipBlanks_cons {c : Char} (h : isBlank c = false) (rest : Text) :
    skipBlanks (c :: rest) = c :: rest := by
  rw [skipBlanks, List.dropWhile_cons_of_neg (by simp [h])]

theorem key?_quotedAscii (key rest : Text) (depth : Nat) :
    key? (Value.newLine depth ++ (Text.quotedAscii key ++ (':' :: ' ' :: rest))) =
      some (key, ' ' :: rest) := by
  rw [key?, skipBlanks_newLine]
  have hquoted : Text.quotedAscii key ++ (':' :: ' ' :: rest) =
      '"' :: (key.flatMap Text.escapeForReport ++ '"' :: (':' :: ' ' :: rest)) := by
    simp [Text.quotedAscii]
  rw [hquoted, skipBlanks_cons (by decide)]
  simp only [characters?_quoted]
  rfl

mutual

def isTextual : Value → Bool
  | .text _ => true
  | .list items => areTextual items
  | .table entries => holdTextual entries
  | _ => false

def areTextual : List Value → Bool
  | [] => true
  | item :: rest => isTextual item && areTextual rest

def holdTextual : List (Text × Value) → Bool
  | [] => true
  | (_, item) :: rest => isTextual item && holdTextual rest

end

theorem value?_congr {text other : Text} (h : skipBlanks text = skipBlanks other) (fuel : Nat) :
    value? fuel text = value? fuel other := by
  cases fuel with
  | zero => rfl
  | succ fuel => rw [value?, value?, h]

theorem exists_json_eq_cons {value : Value} (h : isTextual value = true) (depth : Nat) :
    ∃ first rest, value.json depth = first :: rest ∧ isBlank first = false ∧ first ≠ ']' := by
  cases value with
  | text text => exact ⟨'"', _, rfl, by decide, by decide⟩
  | list items => cases items <;> exact ⟨'[', _, rfl, by decide, by decide⟩
  | table entries => cases entries <;> exact ⟨'\x7b', _, rfl, by decide, by decide⟩
  | _ => cases h

theorem value?_newLine (fuel depth : Nat) (rest : Text) :
    value? fuel (Value.newLine depth ++ rest) = value? fuel rest :=
  value?_congr (skipBlanks_newLine depth rest) fuel

theorem value?_space (fuel : Nat) (rest : Text) : value? fuel (' ' :: rest) = value? fuel rest := by
  have hblank : skipBlanks (' ' :: rest) = skipBlanks rest := rfl
  exact value?_congr hblank fuel

theorem length_newLine_pos (depth : Nat) : 0 < (Value.newLine depth).length := Nat.succ_pos _

theorem value?_quoted (fuel : Nat) (text rest : Text) :
    value? (fuel + 1) (Text.quotedAscii text ++ rest) = some (.text text, rest) := by
  have hquoted : Text.quotedAscii text ++ rest =
      '"' :: (text.flatMap Text.escapeForReport ++ '"' :: rest) := by
    simp [Text.quotedAscii]
  rw [hquoted, value?, skipBlanks_cons (by decide)]
  simp only [characters?_quoted, Option.map_some]

theorem value?_list {fuel : Nat} {text : Text} (h : ∀ more, skipBlanks text ≠ ']' :: more) :
    value? (fuel + 1) ('[' :: text) = (do
      let (item, rest) ← value? fuel text
      let (others, rest) ← items? fuel rest
      return (.list (item :: others), rest)) := by
  rw [value?, skipBlanks_cons (by decide)]
  simp only

theorem value?_table {fuel : Nat} {text : Text} (h : ∀ more, skipBlanks text ≠ '\x7d' :: more) :
    value? (fuel + 1) ('\x7b' :: text) = (do
      let (key, rest) ← key? text
      let (item, rest) ← value? fuel rest
      let (others, rest) ← entries? fuel rest
      return (.table ((key, item) :: others), rest)) := by
  rw [value?, skipBlanks_cons (by decide)]
  simp only

theorem items?_comma (fuel : Nat) (text : Text) :
    items? (fuel + 1) (',' :: text) = (do
      let (item, rest) ← value? fuel text
      let (others, rest) ← items? fuel rest
      return (item :: others, rest)) := by
  rw [items?, skipBlanks_cons (by decide)]
  rfl

theorem entries?_comma (fuel : Nat) (text : Text) :
    entries? (fuel + 1) (',' :: text) = (do
      let (key, rest) ← key? text
      let (item, rest) ← value? fuel rest
      let (others, rest) ← entries? fuel rest
      return ((key, item) :: others, rest)) := by
  rw [entries?, skipBlanks_cons (by decide)]
  rfl

theorem items?_close (fuel depth : Nat) (rest : Text) :
    items? (fuel + 1) (Value.newLine depth ++ ']' :: rest) = some ([], rest) := by
  rw [items?, skipBlanks_newLine, skipBlanks_cons (by decide)]
  rfl

theorem entries?_close (fuel depth : Nat) (rest : Text) :
    entries? (fuel + 1) (Value.newLine depth ++ '\x7d' :: rest) = some ([], rest) := by
  rw [entries?, skipBlanks_newLine, skipBlanks_cons (by decide)]
  rfl

theorem skipBlanks_json_ne {value : Value} (h : isTextual value = true) (outer depth : Nat)
    (rest more : Text) :
    skipBlanks (Value.newLine outer ++ (value.json depth ++ rest)) ≠ ']' :: more := by
  obtain ⟨first, others, hjson, hblank, hbracket⟩ := exists_json_eq_cons h depth
  rw [skipBlanks_newLine, hjson, List.cons_append, skipBlanks_cons hblank]
  exact fun heq => hbracket (List.cons.inj heq).1

theorem skipBlanks_quotedAscii_ne (outer : Nat) (key rest more : Text) :
    skipBlanks (Value.newLine outer ++ (Text.quotedAscii key ++ rest)) ≠ '\x7d' :: more := by
  rw [skipBlanks_newLine, Text.quotedAscii, List.cons_append, List.cons_append,
    skipBlanks_cons (by decide)]
  exact fun heq => absurd (List.cons.inj heq).1 (by decide)

-- Every call is on a part of what is written, so that its length is fuel enough.
mutual

theorem value?_json (value : Value) (depth fuel : Nat) (rest : Text)
    (htextual : isTextual value = true) (hfuel : (value.json depth).length ≤ fuel) :
    value? fuel (value.json depth ++ rest) = some (value, rest) := by
  cases fuel with
  | zero =>
      obtain ⟨first, others, hjson, -⟩ := exists_json_eq_cons htextual depth
      simp [hjson] at hfuel
  | succ left =>
      cases value with
      | text text => exact value?_quoted left text rest
      | list items =>
          cases items with
          | nil => rfl
          | cons item others =>
              obtain ⟨hitem, hothers⟩ := Bool.and_eq_true_iff.mp htextual
              have hnewLine := length_newLine_pos depth
              simp only [Value.json, List.length_append, List.length_cons] at hfuel
              have hread := value?_json item (depth + 1) left
                (Value.jsonItems (depth + 1) others ++ (Value.newLine depth ++ ']' :: rest)) hitem
                (by omega)
              have hmore := items?_jsonItems others (depth + 1) depth left rest hothers (by omega)
              simp only [Value.json, List.cons_append, List.append_assoc, List.nil_append]
              rw [value?_list (skipBlanks_json_ne hitem _ _ _), value?_newLine, hread]
              simp [hmore]
      | table entries =>
          cases entries with
          | nil => rfl
          | cons entry others =>
              obtain ⟨hitem, hothers⟩ := Bool.and_eq_true_iff.mp htextual
              have hnewLine := length_newLine_pos depth
              simp only [Value.json, List.length_append, List.length_cons] at hfuel
              have hread := value?_json entry.2 (depth + 1) left
                (Value.jsonEntries (depth + 1) others ++ (Value.newLine depth ++ '\x7d' :: rest))
                hitem (by omega)
              have hmore := entries?_jsonEntries others (depth + 1) depth left rest hothers
                (by omega)
              simp only [Value.json, List.cons_append, List.append_assoc, List.nil_append]
              rw [value?_table (skipBlanks_quotedAscii_ne _ _ _), key?_quotedAscii]
              simp [value?_space, hread, hmore]
      | _ => cases htextual

theorem items?_jsonItems (items : List Value) (depth outer fuel : Nat) (rest : Text)
    (htextual : areTextual items = true)
    (hfuel : (Value.jsonItems depth items).length < fuel) :
    items? fuel (Value.jsonItems depth items ++ (Value.newLine outer ++ ']' :: rest)) =
      some (items, rest) := by
  obtain ⟨left, rfl⟩ : ∃ left, fuel = left + 1 := ⟨fuel - 1, by omega⟩
  cases items with
  | nil => exact items?_close left outer rest
  | cons item others =>
      obtain ⟨hitem, hothers⟩ := Bool.and_eq_true_iff.mp htextual
      simp only [Value.jsonItems, List.length_append, List.length_cons] at hfuel
      have hread := value?_json item depth left
        (Value.jsonItems depth others ++ (Value.newLine outer ++ ']' :: rest)) hitem (by omega)
      have hmore := items?_jsonItems others depth outer left rest hothers (by omega)
      simp only [Value.jsonItems, List.cons_append, List.append_assoc]
      rw [items?_comma, value?_newLine, hread]
      simp [hmore]

theorem entries?_jsonEntries (entries : List (Text × Value)) (depth outer fuel : Nat) (rest : Text)
    (htextual : holdTextual entries = true)
    (hfuel : (Value.jsonEntries depth entries).length < fuel) :
    entries? fuel (Value.jsonEntries depth entries ++ (Value.newLine outer ++ '\x7d' :: rest)) =
      some (entries, rest) := by
  obtain ⟨left, rfl⟩ : ∃ left, fuel = left + 1 := ⟨fuel - 1, by omega⟩
  cases entries with
  | nil => exact entries?_close left outer rest
  | cons entry others =>
      obtain ⟨hitem, hothers⟩ := Bool.and_eq_true_iff.mp htextual
      simp only [Value.jsonEntries, List.length_append, List.length_cons] at hfuel
      have hread := value?_json entry.2 depth left
        (Value.jsonEntries depth others ++ (Value.newLine outer ++ '\x7d' :: rest)) hitem (by omega)
      have hmore := entries?_jsonEntries others depth outer left rest hothers (by omega)
      simp only [Value.jsonEntries, List.cons_append, List.append_assoc]
      rw [entries?_comma, key?_quotedAscii]
      simp [value?_space, hread, hmore]

end

end Json

end Stylesheets
