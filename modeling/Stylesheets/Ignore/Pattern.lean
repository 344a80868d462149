import Stylesheets.Ignore.Matcher
import Stylesheets.Text.Blank
import Stylesheets.Path.Basic

/-!
# Patterns of files to ignore

A pattern is read segment by segment.  A slash at its beginning or inside it
ties it to the root; without one it applies at any depth.  A slash at its end
asks for something below.  Two stars as a whole segment stand for any number of
directories, and what matches a directory matches everything in it.
-/

namespace Stylesheets.Ignore

structure Pattern where
  excludes : Bool
  parts : List Part
  deriving DecidableEq, Repr

def bracketRanges? : Text → Option (List (Char × Char))
  | [] => some []
  | first :: '-' :: last :: rest =>
    if first ≤ last then (bracketRanges? rest).map ((first, last) :: ·) else none
  | c :: rest => (bracketRanges? rest).map ((c, c) :: ·)

def isNegation (c : Char) : Bool := c == '!' || c == '^'

/-- Splits at the closing bracket, if there is one; a bracket that comes first is content. -/
def closeBracket? : Text → Option (Text × Text)
  | ']' :: rest => (Text.cut? ']' rest).map fun (before, after) => (']' :: before, after)
  | text => Text.cut? ']' text

def bracket? (text : Text) : Option (Option CharClass × Text) :=
  match text with
  | [] => none
  | c :: rest =>
    if isNegation c then
      (closeBracket? rest).map fun (content, after) =>
        ((bracketRanges? content).map .noneOf, after)
    else
      (closeBracket? text).map fun (content, after) =>
        ((bracketRanges? content).map .oneOf, after)

def segmentAtoms? (fuel : Nat) (segment : Text) : Option (List Atom) :=
  match fuel, segment with
  | _, [] => some []
  | 0, _ => none
  | fuel + 1, c :: rest =>
    if c = '\\' then
      match rest with
      | [] => none
      | escaped :: rest =>
        (segmentAtoms? fuel rest).map (.one (.exactly escaped) :: ·)
    else if c = '*' then (segmentAtoms? fuel rest).map (.run .notSlash :: ·)
    else if c = '?' then (segmentAtoms? fuel rest).map (.one .notSlash :: ·)
    else if c = '[' then
      match bracket? rest with
      | none => (segmentAtoms? fuel rest).map (.one (.exactly '[') :: ·)
      | some (none, _) => none
      | some (some accepted, rest) =>
        (segmentAtoms? fuel rest).map (.one accepted :: ·)
    else (segmentAtoms? fuel rest).map (.one (.exactly c) :: ·)

def slash : Atom := .one (.exactly '/')

def anything : List Atom := [.run .notLineFeed]

def something : List Atom := .one .notLineFeed :: anything

def anyName : List Atom := [.one .notSlash, .run .notSlash]

def andBelow : Part := .optional (slash :: anything)

def doubleStar : Text := ['*', '*']

def collapse : List Text → List Text
  | [] => []
  | segment :: rest =>
    match collapse rest with
    | [] => [segment]
    | next :: later =>
      if segment = doubleStar ∧ next = doubleStar then next :: later
      else segment :: next :: later

/-- Ties a pattern to the root, or lets it apply at any depth; what is left may be nothing. -/
def anchored (segments : List Text) : List Text :=
  match segments with
  | [] :: rest => rest
  | [only] => if only = doubleStar then segments else doubleStar :: segments
  | [only, []] => if only = doubleStar then segments else doubleStar :: segments
  | _ => segments

def belowDirectory (segments : List Text) : List Text :=
  match segments.reverse with
  | [] :: before :: earlier => (doubleStar :: before :: earlier).reverse
  | _ => segments

/-- The parts for the segments after the first; `slashed` tells that a slash must come next. -/
def laterParts? (slashed : Bool) : List Text → Option (List Part)
  | [] => some []
  | segment :: rest => do
    let separator := if slashed then [.atom slash] else []
    if segment = doubleStar then
      if rest.isEmpty then return (slash :: anything).map .atom
      else return .optional (slash :: something) :: (← laterParts? true rest)
    else
      let atoms ←
        if segment = ['*'] then some anyName else segmentAtoms? segment.length segment
      let ending := if rest.isEmpty then [andBelow] else []
      return separator ++ atoms.map .atom ++ ending ++ (← laterParts? true rest)

def parts? : List Text → Option (List Part)
  | [] => none
  | segment :: rest =>
    if segment = doubleStar then
      if rest.isEmpty then some (anyName.map .atom ++ [andBelow])
      else (laterParts? false rest).map (.optional (something ++ [slash]) :: ·)
    else laterParts? false (segment :: rest)

def patternParts? (text : Text) : Option (List Part) :=
  let segments := collapse (text.splitOn '/')
  if segments = [doubleStar, []] then
    some ((something ++ slash :: anything).map .atom)
  else parts? (belowDirectory (anchored segments))

/-- White space at the end is dropped, unless a backslash protects a space there. -/
def trimPattern (text : Text) : Text :=
  if "\\ ".toList.isSuffixOf text then text else text.trimEnd

def parse? (line : Text) : Option (Option Pattern) :=
  match trimPattern line with
  | [] => some none
  | '#' :: _ => some none
  | ['/'] => some none
  | '!' :: text => (patternParts? text).map fun parts => some ⟨false, parts⟩
  | text => (patternParts? text).map fun parts => some ⟨true, parts⟩

end Stylesheets.Ignore
