import Stylesheets.Path.Spelling
import Stylesheets.Fault

/-!
# Glob imports

An import with a star in its last segment, or with two stars as the whole
segment before the last, names many files.  What stands before the pattern is
the directory to look in; the pattern must be a single star, for the files in
the directory, or two stars and a star, for all files below it.
-/

namespace Stylesheets

inductive GlobKind where
  | singleLevel
  | recursive
  deriving DecidableEq, Repr

namespace Glob

def star : Text := ['*']

def doubleStar : Text := ['*', '*']

/-- The directory and the pattern of a glob import; other imports have none. -/
def split? (spelling : Text) : Option (Text × Text) :=
  match (spelling.splitOn '/').reverse with
  | [] => none
  | last :: before =>
    match before with
    | [] => if last.elem '*' then some ([], last) else none
    | previous :: earlier =>
      if previous = doubleStar then
        some (Path.joinSegments earlier.reverse, Path.joinSegments [previous, last])
      else if last.elem '*' then some (Path.joinSegments before.reverse, last)
      else none

def isGlob (spelling : Text) : Bool := (split? spelling).isSome

def kind? (pattern : Text) : Option GlobKind :=
  if pattern = star then some .singleLevel
  else if pattern = Path.joinSegments [doubleStar, star] then some .recursive
  else none

def kindOf (pattern : Text) : Except Fault GlobKind :=
  match kind? pattern with
  | some kind => .ok kind
  | none => .error (.glob (.unsupportedPattern pattern))

def parse (spelling : Text) : Except Fault (Text × GlobKind) :=
  match split? spelling with
  | none => .error (.glob (.notGlob spelling))
  | some (residual, pattern) =>
    match kindOf pattern with
    | .error fault => .error fault
    | .ok kind =>
      if residual.elem '*' then .error (.glob (.wildcardInside spelling))
      else .ok (residual, kind)

end Glob

end Stylesheets
