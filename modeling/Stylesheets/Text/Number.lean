import Stylesheets.Text.Letter
import Stylesheets.Text.Blank

/-!
# Whole numbers in text

Numbers are written in decimal notation, or in hexadecimal with a fixed width.
A written number may be read in any script, with white space around it, a sign
and single underscores between its digits.
-/

namespace Stylesheets.Text

def ofNat (number : Nat) : Text := Nat.toDigits 10 number

def ofInt : Int → Text
  | .ofNat number => ofNat number
  | .negSucc number => '-' :: ofNat (number + 1)

def ofNatPadded (width number : Nat) : Text :=
  let digits := ofNat number
  List.replicate (width - digits.length) '0' ++ digits

def ofHex (width number : Nat) : Text :=
  let digits := Nat.toDigits 16 number
  List.replicate (width - digits.length) '0' ++ digits

def groupThousands (digits : Text) : Text :=
  (digits.reverse.zipIdx.flatMap fun (digit, place) =>
    if place ≠ 0 ∧ place % 3 = 0 then [',', digit] else [digit]).reverse

def digitsValue? (value : Nat) : Text → Option Nat
  | [] => some value
  | '_' :: c :: rest => do digitsValue? (value * 10 + (← decimalValue? c)) rest
  | c :: rest => do digitsValue? (value * 10 + (← decimalValue? c)) rest

def natural? : Text → Option Nat
  | [] => none
  | c :: rest => do digitsValue? (← decimalValue? c) rest

def integer? (text : Text) : Option Int :=
  match text.trim with
  | '-' :: digits => (natural? digits).map fun value => -(value : Int)
  | '+' :: digits => (natural? digits).map fun value => (value : Int)
  | digits => (natural? digits).map fun value => (value : Int)

def hexValue? (c : Char) : Option Nat :=
  if isAsciiDigit c then some (c.toNat - '0'.toNat)
  else if 'a' ≤ c ∧ c ≤ 'f' then some (c.toNat - 'a'.toNat + 10)
  else if 'A' ≤ c ∧ c ≤ 'F' then some (c.toNat - 'A'.toNat + 10)
  else none

def hexNumber? (digits : Text) : Option Nat :=
  digits.foldlM (fun value c => (hexValue? c).map (value * 16 + ·)) 0

end Stylesheets.Text
