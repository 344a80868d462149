import Stylesheets.Text.Number

/-!
# Dates and times

A moment is a day of the calendar, a time of day, or both together, which may
then say how far they are ahead of universal time.
-/

namespace Stylesheets

def isLeapYear (year : Nat) : Bool := year % 4 == 0 && (year % 100 != 0 || year % 400 == 0)

def daysIn (year month : Nat) : Nat :=
  match month with
  | 2 => if isLeapYear year then 29 else 28
  | 4 | 6 | 9 | 11 => 30
  | _ => 31

structure Day where
  year : Nat
  month : Nat
  day : Nat
  year_mem : 1 ≤ year ∧ year ≤ 9999
  month_mem : 1 ≤ month ∧ month ≤ 12
  day_mem : 1 ≤ day ∧ day ≤ daysIn year month
  deriving DecidableEq

structure Clock where
  hour : Nat
  minute : Nat
  second : Nat
  microsecond : Nat
  hour_lt : hour < 24
  minute_lt : minute < 60
  second_lt : second < 60
  microsecond_lt : microsecond < 1000000
  deriving DecidableEq

structure Offset where
  minutes : Int
  minutes_lt : minutes.natAbs < 24 * 60
  deriving DecidableEq

inductive Moment where
  | day (date : Day)
  | clock (time : Clock)
  | dated (date : Day) (time : Clock) (offset : Option Offset)
  deriving DecidableEq

namespace Day

def of? (year month day : Nat) : Option Day :=
  if h : (1 ≤ year ∧ year ≤ 9999) ∧ (1 ≤ month ∧ month ≤ 12) ∧
      1 ≤ day ∧ day ≤ daysIn year month then
    some ⟨year, month, day, h.1, h.2.1, h.2.2⟩
  else none

def text (day : Day) : Text :=
  Text.ofNatPadded 4 day.year ++ '-' :: Text.ofNatPadded 2 day.month ++
    '-' :: Text.ofNatPadded 2 day.day

def parts (day : Day) : List Text :=
  [Text.ofNat day.year, Text.ofNat day.month, Text.ofNat day.day]

end Day

namespace Clock

def of? (hour minute second microsecond : Nat) : Option Clock :=
  if h : hour < 24 ∧ minute < 60 ∧ second < 60 ∧ microsecond < 1000000 then
    some ⟨hour, minute, second, microsecond, h.1, h.2.1, h.2.2.1, h.2.2.2⟩
  else none

def text (clock : Clock) : Text :=
  Text.ofNatPadded 2 clock.hour ++ ':' :: Text.ofNatPadded 2 clock.minute ++
    ':' :: Text.ofNatPadded 2 clock.second ++
      if clock.microsecond = 0 then [] else '.' :: Text.ofNatPadded 6 clock.microsecond

def parts (clock : Clock) : List Text :=
  let precise :=
    if clock.microsecond ≠ 0 then [clock.second, clock.microsecond]
    else if clock.second ≠ 0 then [clock.second]
    else []
  ([clock.hour, clock.minute] ++ precise).map Text.ofNat

end Clock

namespace Offset

def of? (minutes : Int) : Option Offset :=
  if h : minutes.natAbs < 24 * 60 then some ⟨minutes, h⟩ else none

def text (offset : Offset) : Text :=
  (if offset.minutes < 0 then '-' else '+') ::
    Text.ofNatPadded 2 (offset.minutes.natAbs / 60) ++
      ':' :: Text.ofNatPadded 2 (offset.minutes.natAbs % 60)

def part : Text := "tzinfo=<toml.tz.TomlTz object>".toList

end Offset

namespace Moment

def isClock : Moment → Bool
  | clock _ => true
  | _ => false

def kindName : Moment → Text
  | day _ => "date".toList
  | clock _ => "time".toList
  | dated _ _ _ => "datetime".toList

def text : Moment → Text
  | day date => date.text
  | clock time => time.text
  | dated date time offset => date.text ++ ' ' :: time.text ++ (offset.map Offset.text).getD []

def parts : Moment → List Text
  | day date => date.parts
  | clock time => time.parts
  | dated date time offset =>
    date.parts ++ time.parts ++ (offset.map fun _ => Offset.part).toList

/-- The form inside a list or a table, which tells the kind and the parts. -/
def inner (moment : Moment) : Text :=
  "datetime.".toList ++ moment.kindName ++
    '(' :: List.intercalate [',', ' '] moment.parts ++ [')']

end Moment

end Stylesheets
