import Stylesheets.Value.Moment

/-!
# Dates and times in configuration files

A day is written as year, month and day, a time with two digits for each of
hours, minutes and seconds.  Both together may end with a distance from
universal time.
-/

namespace Stylesheets.Toml

def digits? (written : Text) : Option Nat :=
  if written.all Text.isAsciiDigit then Text.natural? written else none

def day? : Text → Option Day
  | [y₁, y₂, y₃, y₄, '-', m₁, m₂, '-', d₁, d₂] => do
    Day.of? (← digits? [y₁, y₂, y₃, y₄]) (← digits? [m₁, m₂]) (← digits? [d₁, d₂])
  | _ => none

/-- A time up to the seconds, the digits of a fraction and what follows them. -/
structure ClockText where
  hour : Nat
  minute : Nat
  second : Nat
  fraction : Text
  rest : Text

def fraction : Text → Text × Text
  | '.' :: rest => (rest.takeWhile Text.isAsciiDigit, rest.dropWhile Text.isAsciiDigit)
  | rest => ([], rest)

def clockText? : Text → Option ClockText
  | h₁ :: h₂ :: ':' :: m₁ :: m₂ :: ':' :: s₁ :: s₂ :: after => do
    let (fraction, rest) := fraction after
    return {
      hour := ← digits? [h₁, h₂]
      minute := ← digits? [m₁, m₂]
      second := ← digits? [s₁, s₂]
      fraction, rest }
  | _ => none

namespace ClockText

def clock? (written : ClockText) (microsecond : Nat) : Option Clock :=
  Clock.of? written.hour written.minute written.second microsecond

def plain? (written : ClockText) : Option Clock :=
  let counted := written.fraction.take 6
  if counted.length < 3 then written.clock? 0
  else do written.clock? (← digits? counted)

/-- A time after a day, whose fraction counts tenths of a second, hundredths and so on. -/
def dated? (written : ClockText) : Option Clock := do
  let counted := written.fraction.take 6
  written.clock? (← digits? (counted ++ List.replicate (6 - counted.length) '0'))

end ClockText

/-- The distance from universal time at the end of a text; there may be none. -/
def offset? : Text → Option (Option Offset)
  | [] => some none
  | ['Z'] | ['z'] => (Offset.of? 0).map some
  | sign :: h₁ :: h₂ :: ':' :: [m₁, m₂] => do
    let minutes : Int := (← digits? [h₁, h₂]) * 60 + (← digits? [m₁, m₂])
    if sign = '+' then (Offset.of? minutes).map some
    else if sign = '-' then (Offset.of? (-minutes)).map some
    else none
  | _ => none

def isBetween (c : Char) : Bool := c == 'T' || c == 't' || c == ' '

def dated? (token : Text) : Option Moment := do
  let date ← day? (token.take 10)
  match token.drop 10 with
  | between :: rest =>
    if isBetween between then
      let written ← clockText? rest
      return .dated date (← written.dated?) (← offset? written.rest)
    else none
  | [] => return .day date

def moment? (token : Text) : Option Moment :=
  match clockText? token with
  | some written => if written.rest.isEmpty then written.plain?.map .clock else none
  | none => dated? token

end Stylesheets.Toml
