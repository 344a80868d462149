import Stylesheets.Text.Basic

/-!
# Paths

A path is an anchor and a list of segments.  Two slashes at the beginning are
an anchor of their own; any other number of them is the root.  Empty segments
and single dots mean nothing and are dropped, double dots are kept.
-/

namespace Stylesheets

inductive Anchor where
  | relative
  | root
  | doubleRoot
  deriving DecidableEq, Repr

structure Path where
  anchor : Anchor
  segments : List Text
  deriving DecidableEq, Repr

namespace Anchor

def ofSlashes : Nat → Anchor
  | 0 => relative
  | 2 => doubleRoot
  | _ => root

def text : Anchor → Text
  | relative => []
  | root => ['/']
  | doubleRoot => ['/', '/']

end Anchor

namespace Path

def dot : Text := ['.']

def doubleDot : Text := ['.', '.']

def isStep (segment : Text) : Bool := !segment.isEmpty && segment != dot

def isName (segment : Text) : Bool :=
  isStep segment && segment != doubleDot && !segment.elem '/'

def steps (text : Text) : List Text := (text.splitOn '/').filter isStep

def ofText (text : Text) : Path where
  anchor := .ofSlashes (text.takeWhile (· == '/')).length
  segments := steps text

def joinSegments (segments : List Text) : Text := List.intercalate ['/'] segments

/-- The written form; the path that leads nowhere is written as a single dot. -/
def text (path : Path) : Text :=
  let written := path.anchor.text ++ joinSegments path.segments
  if written.isEmpty then dot else written

def isAbsolute (path : Path) : Bool := path.anchor != .relative

def name (path : Path) : Text := path.segments.getLastD []

def parent (path : Path) : Path := { path with segments := path.segments.dropLast }

def child (path : Path) (name : Text) : Path :=
  { path with segments := path.segments ++ [name] }

def append (base path : Path) : Path :=
  if path.isAbsolute then path
  else { base with segments := base.segments ++ path.segments }

theorem append_of_isAbsolute {base path : Path} (h : path.isAbsolute = true) :
    base.append path = path := if_pos h

theorem isAbsolute_append {base : Path} (h : base.isAbsolute = true) (path : Path) :
    (base.append path).isAbsolute = true := by
  unfold append
  split
  · assumption
  · exact h

def below? (root path : Path) : Option (List Text) :=
  if root.anchor = path.anchor then root.segments.isPrefixOf? path.segments else none

end Path

abbrev AbsolutePath := {path : Path // path.isAbsolute = true}

end Stylesheets
