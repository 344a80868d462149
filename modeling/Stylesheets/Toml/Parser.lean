import Stylesheets.Toml.Calendar
import Stylesheets.Value.Basic

/-!
# Reading configuration files

A configuration file is a sequence of lines: headers of tables, keys with
values, comments.  Every reader takes a text and gives back what it read and
the rest, or nothing.
-/

namespace Stylesheets.Toml

abbrev Reader (α : Type) := Text → Option (α × Text)

inductive Statement where
  | header (name : List Text) (inArray : Bool)
  | assignment (key : List Text) (value : Value)

def isSpace (c : Char) : Bool := c == ' ' || c == '\t'

def skipSpace (text : Text) : Text := text.dropWhile isSpace

def afterComment (text : Text) : Text := text.dropWhile (· != '\n')

def skipLines (fuel : Nat) (text : Text) : Text :=
  match fuel, skipSpace text with
  | fuel + 1, '\n' :: rest => skipLines fuel rest
  | fuel + 1, '#' :: rest => skipLines fuel (afterComment rest)
  | _, rest => rest

def lineEnd? (text : Text) : Option Text :=
  match skipSpace text with
  | [] => some []
  | '\n' :: rest => some rest
  | '#' :: rest => some ((afterComment rest).drop 1)
  | _ => none

def escapes : List (Char × Char) := [
  ('0', '\x00'), ('b', '\x08'), ('f', '\x0c'), ('n', '\n'), ('r', '\r'),
  ('t', '\t'), ('"', '"'), ('\\', '\\')]

def codePoint? (digits : Text) : Option Char := do
  let code ← Text.hexNumber? digits
  if h : code.isValidChar then some (.ofNatAux code h) else none

def escape : Reader Char
  | [] => none
  | 'u' :: rest =>
    if 4 ≤ rest.length then (codePoint? (rest.take 4)).map fun c => (c, rest.drop 4) else none
  | 'U' :: rest =>
    if 8 ≤ rest.length then (codePoint? (rest.take 8)).map fun c => (c, rest.drop 8) else none
  | c :: rest => (escapes.lookup c).map fun meant => (meant, rest)

def shortText (raw : Bool) (quote : Char) (fuel : Nat) : Reader Text := fun text =>
  match fuel, text with
  | fuel + 1, c :: rest =>
    if c = quote then some ([], rest)
    else if c = '\n' then none
    else if c = '\\' ∧ !raw then do
      let (meant, rest) ← escape rest
      let (inside, rest) ← shortText raw quote fuel rest
      return (meant :: inside, rest)
    else do
      let (inside, rest) ← shortText raw quote fuel rest
      return (c :: inside, rest)
  | _, _ => none

def longText (raw : Bool) (quote : Char) (fuel : Nat) : Reader Text := fun text =>
  match fuel, text with
  | fuel + 1, c :: rest =>
    match (List.replicate 3 quote).isPrefixOf? (c :: rest) with
    | some after => some ([], after)
    | none =>
      if c = '\\' ∧ !raw then
        match skipSpace rest with
        | '\n' :: next => longText raw quote fuel (next.dropWhile Text.isBlank)
        | _ => do
          let (meant, rest) ← escape rest
          let (inside, rest) ← longText raw quote fuel rest
          return (meant :: inside, rest)
      else do
        let (inside, rest) ← longText raw quote fuel rest
        return (c :: inside, rest)
  | _, _ => none

def dropLineFeed : Text → Text
  | '\n' :: rest => rest
  | text => text

def isQuote (c : Char) : Bool := c == '"' || c == '\''

/-- A text in quotes, of which the single ones leave everything as it is. -/
def quotedText : Reader Text
  | [] => none
  | quote :: rest =>
    if !isQuote quote then none
    else
      let raw := quote == '\''
      match [quote, quote].isPrefixOf? rest with
      | some inside => longText raw quote inside.length (dropLineFeed inside)
      | none => shortText raw quote rest.length rest

def isKeyChar (c : Char) : Bool := Text.isAlphanumeric c || c == '_' || c == '-'

def startsKey (c : Char) : Bool :=
  !(isSpace c || c == '\n' || c == '=' || c == '[' || c == '#' || c == '\x7b' || isQuote c)

def bareKey : Reader Text
  | [] => none
  | c :: rest =>
    if startsKey c then some (c :: rest.takeWhile isKeyChar, rest.dropWhile isKeyChar)
    else none

def keyPart : Reader Text
  | [] => none
  | c :: rest =>
    if isQuote c then shortText (c == '\'') c rest.length rest else bareKey (c :: rest)

def namePart : Reader Text
  | [] => none
  | c :: rest =>
    if isQuote c then shortText true c rest.length rest
    else
      let name := (c :: rest).takeWhile fun c => c.isAlphanum || c == '_' || c == '-'
      if name.isEmpty then none else some (name, (c :: rest).drop name.length)

def dotted (part : Reader Text) (fuel : Nat) : Reader (List Text) := fun text => do
  let (first, rest) ← part (skipSpace text)
  match fuel, skipSpace rest with
  | fuel + 1, '.' :: rest => do
    let (later, rest) ← dotted part fuel rest
    return (first :: later, rest)
  | _, rest => return ([first], rest)

/-! ## Numbers -/

def isNumberChar (c : Char) : Bool :=
  c.isAlphanum || c == '_' || c == '+' || c == '-' || c == '.' || c == ':'

def plainNatural? (digits : Text) : Option Nat :=
  match digits with
  | '0' :: _ :: _ => none
  | digits => Text.natural? digits

def inBase? (base : Nat) (digits : Text) : Option Nat :=
  let bare := digits.filter (· != '_')
  if bare.isEmpty then none
  else
    bare.foldlM (fun value c => do
      let digit ← Text.hexValue? c
      if digit < base then some (value * base + digit) else none) 0

def unsignedWhole? : Text → Option Nat
  | '0' :: 'x' :: digits => inBase? 16 digits
  | '0' :: 'o' :: digits => inBase? 8 digits
  | '0' :: 'b' :: digits => inBase? 2 digits
  | digits => plainNatural? digits

def signed (text : Text) : Bool × Text :=
  match text with
  | '-' :: rest => (true, rest)
  | '+' :: rest => (false, rest)
  | rest => (false, rest)

def whole? (token : Text) : Option Int :=
  let (negative, digits) := signed token
  let value :=
    if digits.length < token.length then plainNatural? digits else unsignedWhole? digits
  value.map fun value => if negative then -(value : Int) else value

def isExponentMark (c : Char) : Bool := c == 'e' || c == 'E'

def exponent? (text : Text) : Option Int :=
  match text with
  | [] => some 0
  | _ :: written =>
    let (negative, digits) := signed written
    (Text.natural? digits).map fun value => if negative then -(value : Int) else value

/-- A number with a point or an exponent; there is no negative zero. -/
def fraction? (token : Text) : Option Float := do
  let (negative, unsigned) := signed token
  let mantissa := unsigned.takeWhile fun c => !isExponentMark c
  let exponent ← exponent? (unsigned.drop mantissa.length)
  let before := mantissa.takeWhile (· != '.')
  let _ ← plainNatural? before
  let after ←
    match mantissa.drop before.length with
    | [] => some []
    | _ :: after => (Text.natural? after).map fun _ => after
  let places := after.filter (· != '_')
  let digits ← Text.natural? (before ++ places)
  let shift := exponent - places.length
  let value := Float.ofScientific digits (shift < 0) shift.natAbs
  return if negative then 0 - value else value

def named? (token : Text) : Option Float :=
  let (negative, name) := signed token
  let size? : Option Float :=
    if name.map Char.toLower = "inf".toList then some (1 / 0)
    else if name.map Char.toLower = "nan".toList then some (0 / 0)
    else none
  size?.map fun size => if negative then 0 - size else size

def number? (token : Text) : Option Value :=
  match whole? token, named? token with
  | some value, _ => some (.int value)
  | none, some value => some (.float value)
  | none, none =>
    if token.elem '.' || token.any isExponentMark then (fraction? token).map .float else none

/-! ## Values -/

def bareToken (text : Text) : Text :=
  let first := text.takeWhile isNumberChar
  match text.drop first.length with
  | ' ' :: rest =>
    let second := rest.takeWhile isNumberChar
    if (day? first).isSome ∧ (clockText? second).isSome then first ++ ' ' :: second else first
  | _ => first

def bareValue : Reader Value := fun text =>
  let token := bareToken text
  let value :=
    if token = "true".toList then some (.bool true)
    else if token = "false".toList then some (.bool false)
    else ((moment? token).map .moment).or (number? token)
  value.map fun value => (value, text.drop token.length)

def sameKind : Value → Value → Bool
  | .bool _, .bool _ => true
  | .int _, .int _ => true
  | .float _, .float _ => true
  | .text _, .text _ => true
  | .moment first, .moment second => first.isClock == second.isClock
  | .list _, .list _ => true
  | .table _, .table _ => true
  | _, _ => false

def uniform : List Value → Bool
  | [] => true
  | first :: rest => rest.all (sameKind first)

def assign (table : Table) (key : List Text) (value : Value) : Option Table :=
  match key with
  | [] => none
  | [name] => if table.contains name then none else some (table.insert name value)
  | name :: rest =>
    match (table.get? name).getD (.table []) with
    | .table inner =>
      (assign inner rest value).map fun changed => table.insert name (.table changed)
    | _ => none

mutual

def value (fuel : Nat) : Reader Value := fun text =>
  match fuel, text with
  | _, [] => none
  | 0, _ => none
  | fuel + 1, c :: rest =>
    if isQuote c then (quotedText (c :: rest)).map fun (found, rest) => (.text found, rest)
    else if c = '[' then do
      let (found, rest) ← items fuel (skipLines rest.length rest)
      if uniform found then return (.list found, rest) else none
    else if c = '\x7b' then
      match skipSpace rest with
      | '\x7d' :: rest => some (.table [], rest)
      | inside => (entries fuel [] inside).map fun (found, rest) => (.table found, rest)
    else bareValue (c :: rest)

def items (fuel : Nat) : Reader (List Value) := fun text =>
  match fuel, text with
  | _, [] => none
  | 0, _ => none
  | fuel + 1, c :: rest =>
    if c = ']' then some ([], rest)
    else if c = ',' then items fuel (skipLines rest.length rest)
    else do
      let (first, rest) ← value fuel (c :: rest)
      match skipLines rest.length rest with
      | ',' :: rest => do
        let (later, rest) ← items fuel (skipLines rest.length rest)
        return (first :: later, rest)
      | ']' :: rest => return ([first], rest)
      | _ => none

def entries (fuel : Nat) (before : Table) : Reader Table := fun text =>
  match fuel with
  | 0 => none
  | fuel + 1 => do
    let (key, rest) ← dotted keyPart text.length text
    let rest ← ['='].isPrefixOf? rest
    let (found, rest) ← value fuel (skipSpace rest)
    let table ← assign before key found
    match skipSpace rest with
    | ',' :: rest => entries fuel table rest
    | '\x7d' :: rest => return (table, rest)
    | _ => none

end

def header (inArray : Bool) : Reader Statement := fun text => do
  let (name, rest) ← dotted namePart text.length text
  let rest ← (List.replicate (if inArray then 2 else 1) ']').isPrefixOf? rest
  return (.header name inArray, ← lineEnd? rest)

def assignment : Reader Statement := fun text => do
  let (key, rest) ← dotted keyPart text.length text
  let rest ← ['='].isPrefixOf? rest
  let (found, rest) ← value (2 * rest.length + 1) (skipSpace rest)
  return (.assignment key found, ← lineEnd? rest)

def statement : Reader Statement
  | '[' :: '[' :: rest => header true rest
  | '[' :: rest => header false rest
  | text => assignment text

def statements (fuel : Nat) (text : Text) : Option (List Statement) :=
  match fuel, skipLines text.length text with
  | _, [] => some []
  | 0, _ => none
  | fuel + 1, rest => do
    let (first, rest) ← statement rest
    return first :: (← statements fuel rest)

end Stylesheets.Toml
