import Stylesheets.Template.Spacing
import Stylesheets.Text.Number

/-!
# Reading templates

Every reader takes a text and gives back what it read and the rest, or nothing.
The first alternative that succeeds is final.  A reader that goes into itself
takes at least one character first, so the length of the text is fuel enough.
-/

namespace Stylesheets.Template

abbrev Reader (α : Type) := Text → Option (α × Text)

def isSpace (c : Char) : Bool := c == ' ' || c == '\t' || c == '\r' || c == '\n'

def afterBlank? (mark text : Text) : Option Text := mark.isPrefixOf? text.trimStart

def otherwise? (text : Text) : Option Text :=
  let inner := text.trimStart
  (("^".toList.isPrefixOf? inner).or ("else".toList.isPrefixOf? inner)).bind
    (afterBlank? closeTag)

def isOtherwise (text : Text) : Bool := (otherwise? text).isSome

def isSymbolChar (c : Char) : Bool := Text.isWord c || c == '-' || c == '@'

def dropOne (c : Char) : Text → Text
  | [] => []
  | head :: rest => if head = c then rest else head :: rest

/-- A name, which brackets may surround. -/
def symbol : Reader Text := fun text =>
  let inner := dropOne '[' text
  let name := inner.takeWhile isSymbolChar
  if isOtherwise text || name.isEmpty then none
  else some (name, dropOne ']' (inner.dropWhile isSymbolChar))

def bracketed : Reader Text
  | '[' :: inner =>
    let name := inner.takeWhile (· != ']')
    match inner.dropWhile (· != ']') with
    | ']' :: rest => if name.isEmpty then none else some (name, rest)
    | _ => none
  | _ => none

def step : Reader Text := fun text =>
  match bracketed text with
  | some found => some found
  | none =>
    match "@../".toList.isPrefixOf? text with
    | some rest => some (outwardForData, rest)
    | none =>
      match symbol text with
      | some found => some found
      | none =>
        match text with
        | '/' :: rest => some ([], rest)
        | '.' :: '.' :: '/' :: rest => some (outward, rest)
        | '.' :: rest => some ([], rest)
        | _ => none

def steps (fuel : Nat) (text : Text) : Steps × Text :=
  match fuel with
  | 0 => ([], text)
  | fuel + 1 =>
    match step text with
    | none => ([], text)
    | some (first, rest) =>
      let (later, rest) := steps fuel rest
      (first :: later, rest)

def path : Reader Steps := fun text =>
  if "/".toList.isPrefixOf text then none
  else
    match steps text.length text with
    | ([], _) => none
    | found => some found

def quotedInside (quote : Char) : Reader Text
  | [] => none
  | '\\' :: c :: rest => (quotedInside quote rest).map fun (inside, rest) =>
      (if c = quote || c = '\\' then c :: inside
       else if c = 'n' then '\n' :: inside
       else if c = 't' then '\t' :: inside
       else if c = 'r' then '\r' :: inside
       else '\\' :: c :: inside, rest)
  | c :: rest =>
    if c = quote then some ([], rest)
    else (quotedInside quote rest).map fun (inside, rest) => (c :: inside, rest)

def wholeNumber : Reader Int := fun text =>
  let unsigned := dropOne '-' text
  let digits := unsigned.takeWhile Text.isDigit
  (Text.natural? digits).map fun value =>
    (if "-".toList.isPrefixOf text then -(value : Int) else value,
      unsigned.dropWhile Text.isDigit)

def word? (word : String) (value : Value) : Reader Value := fun text =>
  (word.toList.isPrefixOf? text).map fun rest => (value, rest)

def constant : Reader Value := fun text =>
  let quoted := match text with
    | '"' :: rest => quotedInside '"' rest
    | '\'' :: rest => quotedInside '\'' rest
    | _ => none
  (quoted.map fun (inside, rest) => (.text inside, rest)).or <|
  ((wholeNumber text).map fun (value, rest) => (.int value, rest)).or <|
  (word? "false" (.bool false) text).or <|
  (word? "true" (.bool true) text).or <|
  (word? "null" .null text).or <|
  word? "undefined" .null text

/-! ## Arguments -/

def argumentName? (text : Text) : Option Text :=
  let inner := dropOne '[' text
  match inner with
  | [] => none
  | c :: _ =>
    if isOtherwise text || !(Text.isLetter c || c == '_') then none
    else "=".toList.isPrefixOf? (dropOne ']' (inner.dropWhile Text.isWord))

mutual

def value (fuel : Nat) : Reader Argument := fun text =>
  match constant text with
  | some (found, rest) => some (.constant found, rest)
  | none =>
    match path text with
    | some (found, rest) => some (.path found, rest)
    | none =>
      match fuel, text with
      | fuel + 1, '(' :: inner => do
        let (function, rest) ← path (Text.trimStart inner)
        let (found, rest) := arguments fuel rest
        return (.call function found, ← afterBlank? [')'] rest)
      | _, _ => none

def argument (fuel : Nat) : Reader Argument := fun text =>
  let named : Option (Argument × Text) := do
    let rest ← argumentName? text
    let (found, rest) ← value fuel rest
    return (.named found, rest)
  named.or (value fuel text)

def arguments (fuel : Nat) (text : Text) : List Argument × Text :=
  match fuel, text with
  | fuel + 1, c :: rest =>
    if isSpace c then
      match argument fuel (rest.dropWhile isSpace) with
      | none => ([], text)
      | some (first, rest) =>
        let (later, rest) := arguments fuel rest
        (first :: later, rest)
    else ([], text)
  | _, _ => ([], text)

end

def expressionInside : Reader (Steps × List Argument) := fun text => do
  let (found, rest) ← path text.trimStart
  let (given, rest) := arguments rest.length rest
  return ((found, given), ← afterBlank? closeTag rest)

def blockInside : Reader (Text × List Argument) := fun text => do
  let (name, rest) ← symbol text.trimStart
  let (given, rest) := arguments rest.length rest
  return ((name, given), ← afterBlank? closeTag rest)

def afterClose? : Text → Option Text
  | [] => none
  | c :: rest =>
    match closeTag.isPrefixOf? (c :: rest) with
    | some after => some after
    | none => afterClose? rest

def simpleTag : Reader Node
  | '!' :: rest => (afterClose? rest).map fun rest => (.comment, rest)
  | text =>
    match expressionInside text with
    | some ((found, given), rest) => some (.expression true found given, rest)
    | none =>
      match text with
      | '\x7b' :: inner => do
        let ((found, given), rest) ← expressionInside inner
        return (.expression false found given, ← "\x7d".toList.isPrefixOf? rest)
      | '&' :: inner =>
        (expressionInside inner).map fun ((found, given), rest) =>
          (.expression false found given, rest)
      | _ => none

def isInclusionEnd (text : Text) : Bool :=
  match text with
  | [] => true
  | c :: _ => isSpace c || c == ']' || c == '"' || closeTag.isPrefixOf text

def inclusionName : Text → Text
  | [] => []
  | c :: rest => if isInclusionEnd (c :: rest) then c :: rest else inclusionName rest

def inclusion : Reader Node := fun text => do
  let start := text.trimStart
  let rest ←
    match start with
    | '(' :: inner => do
      let (_, rest) ← path (Text.trimStart inner)
      afterBlank? [')'] (arguments rest.length rest).2
    | _ =>
      let named := dropOne '"' (dropOne '[' start)
      if isOtherwise start || isInclusionEnd named then none
      else some (dropOne '"' (dropOne ']' (inclusionName named)))
  return (.inclusion, ← afterBlank? closeTag (arguments rest.length rest).2)

def literalText : Text → Text × Text
  | [] => ([], [])
  | c :: rest =>
    if openTag.isPrefixOf (c :: rest) then ([], c :: rest)
    else
      let (before, after) := literalText rest
      (c :: before, after)

mutual

def nodes (fuel : Nat) (text : Text) : List Node × Text :=
  match fuel, text with
  | fuel + 1, c :: rest =>
    match openTag.isPrefixOf? (c :: rest) with
    | none =>
      let (literal, rest) := literalText (c :: rest)
      let (later, rest) := nodes fuel rest
      (.literal literal :: later, rest)
    | some inner =>
      match tag fuel inner with
      | none => ([], c :: rest)
      | some (first, rest) =>
        let (later, rest) := nodes fuel rest
        (first :: later, rest)
  | _, _ => ([], text)

def tag (fuel : Nat) : Reader Node := fun text =>
  match fuel, text with
  | fuel + 1, '#' :: rest => block fuel false rest
  | fuel + 1, '^' :: rest => block fuel true rest
  | _, '>' :: rest => inclusion rest
  | _, text => simpleTag text

def block (fuel : Nat) (inverted : Bool) : Reader Node := fun text =>
  match fuel with
  | 0 => none
  | fuel + 1 => do
    let ((name, given), rest) ← blockInside text
    let (body, rest) := nodes fuel rest
    let (otherwise, rest) :=
      match (openTag.isPrefixOf? rest).bind otherwise? with
      | none => ([], rest)
      | some inner => nodes fuel inner
    let (closed, rest) ← symbol (← (openTag ++ ['/']).isPrefixOf? rest)
    if closed = name then
      return (.block inverted name given body otherwise, ← closeTag.isPrefixOf? rest)
    else none

end

def parse? (text : Text) : Option (List Node) :=
  let spaced := normalizeSpacing text
  match nodes (3 * spaced.length + 1) spaced with
  | (found, []) => some found
  | _ => none

end Stylesheets.Template
