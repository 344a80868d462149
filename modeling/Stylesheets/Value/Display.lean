import Stylesheets.Value.Basic
import Stylesheets.Decimal.Shortest
import Stylesheets.Text.Quoted

/-!
# Values in messages and templates

A value is displayed on one line.  Text is displayed as it is on its own and
quoted inside a list or a table.
-/

namespace Stylesheets

structure FloatFormat where
  /-- Positional notation holds for a leading digit from this exponent on. -/
  leastPositional : Int
  /-- Positional notation holds for a leading digit below this exponent. -/
  mostPositional : Int
  exponentDigits : Nat
  infinity : Text
  notANumber : Text

def Value.floatFormat : FloatFormat where
  leastPositional := -4
  mostPositional := 16
  exponentDigits := 2
  infinity := "inf".toList
  notANumber := "nan".toList

namespace FloatFormat

private def zeros (count : Int) : Text := List.replicate count.toNat '0'

private def positional (digits : Text) (exponent : Int) : Text :=
  let point : Int := digits.length + exponent
  if 0 ≤ exponent then digits ++ zeros exponent ++ ['.', '0']
  else if 0 < point then digits.take point.toNat ++ '.' :: digits.drop point.toNat
  else '0' :: '.' :: zeros (-point) ++ digits

private def scientific (format : FloatFormat) (digits : Text) (leading : Int) : Text :=
  let mantissa := match digits with
    | [] => []
    | [digit] => [digit]
    | digit :: rest => digit :: '.' :: rest
  let places := Text.ofNat leading.natAbs
  mantissa ++ 'e' :: (if leading < 0 then '-' else '+') ::
    List.replicate (format.exponentDigits - places.length) '0' ++ places

def decimalText (format : FloatFormat) (decimal : Decimal) : Text :=
  let digits := Text.ofNat decimal.digits
  let leading : Int := digits.length + decimal.exponent - 1
  let unsigned :=
    if format.leastPositional ≤ leading ∧ leading < format.mostPositional then
      positional digits decimal.exponent
    else scientific format digits leading
  if decimal.negative then '-' :: unsigned else unsigned

def text (format : FloatFormat) (number : Float) : Text :=
  match Decimal.ofFloat? number with
  | some decimal => format.decimalText decimal
  | none =>
    if number.isNaN then format.notANumber
    else if number < 0 then '-' :: format.infinity else format.infinity

end FloatFormat

namespace Value

mutual

def inner : Value → Text
  | null => "None".toList
  | bool true => "True".toList
  | bool false => "False".toList
  | int value => Text.ofInt value
  | float value => floatFormat.text value
  | text value => Text.quoted value
  | moment value => value.inner
  | list items => Text.bracketed (innerItems items)
  | table entries =>
    '\x7b' :: List.intercalate [',', ' '] (innerEntries entries) ++ ['\x7d']

def innerItems : List Value → List Text
  | [] => []
  | value :: rest => value.inner :: innerItems rest

def innerEntries : List (Text × Value) → List Text
  | [] => []
  | (key, value) :: rest =>
    (Text.quoted key ++ ':' :: ' ' :: value.inner) :: innerEntries rest

end

def display : Value → Text
  | text value => value
  | moment value => value.text
  | value => value.inner

@[simp] theorem display_text (value : Text) : (text value).display = value := rfl

def kindName : Value → Text
  | null => "NoneType".toList
  | bool _ => "bool".toList
  | int _ => "int".toList
  | float _ => "float".toList
  | text _ => "str".toList
  | moment value => value.kindName
  | list _ => "list".toList
  | table _ => "dict".toList

end Value

end Stylesheets
