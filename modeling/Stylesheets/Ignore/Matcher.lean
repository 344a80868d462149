import Stylesheets.Text.Basic

/-!
# Matching file names

A matcher is a sequence of parts.  A part takes one character of a class, or
any number of them, or stands for a sequence that may be left out.  The whole
name must be matched; a line feed at its very end may remain.
-/

namespace Stylesheets.Ignore

inductive CharClass where
  | exactly (c : Char)
  | notSlash
  | notLineFeed
  | oneOf (ranges : List (Char × Char))
  | noneOf (ranges : List (Char × Char))
  deriving DecidableEq, Repr

namespace CharClass

private def inAny (ranges : List (Char × Char)) (c : Char) : Bool :=
  ranges.any fun range => range.1 ≤ c && c ≤ range.2

def holds : CharClass → Char → Bool
  | exactly expected, c => c == expected
  | notSlash, c => c != '/'
  | notLineFeed, c => c != '\n'
  | oneOf ranges, c => inAny ranges c
  | noneOf ranges, c => !inAny ranges c

end CharClass

inductive Atom where
  | one (accepted : CharClass)
  | run (accepted : CharClass)
  deriving DecidableEq, Repr

inductive Part where
  | atom (atom : Atom)
  | optional (atoms : List Atom)
  deriving DecidableEq, Repr

def afterRun (accepted : CharClass) : Text → List Text
  | [] => [[]]
  | c :: rest =>
    (c :: rest) :: if accepted.holds c then afterRun accepted rest else []

def afterAtom : Atom → Text → List Text
  | .one accepted, c :: rest => if accepted.holds c then [rest] else []
  | .one _, [] => []
  | .run accepted, text => afterRun accepted text

def afterAtoms : List Atom → Text → List Text
  | [], text => [text]
  | atom :: rest, text => (afterAtom atom text).flatMap (afterAtoms rest)

def afterPart : Part → Text → List Text
  | .atom atom, text => afterAtom atom text
  | .optional atoms, text => text :: afterAtoms atoms text

def isEnd (text : Text) : Bool := text.isEmpty || text == ['\n']

def matchesAll : List Part → Text → Bool
  | [], text => isEnd text
  | part :: rest, text => (afterPart part text).any (matchesAll rest)

end Stylesheets.Ignore
