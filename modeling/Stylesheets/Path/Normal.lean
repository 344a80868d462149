import Stylesheets.Path.Basic

/-!
# Normal paths

A double dot takes back the segment before it.  What is left of them in a
relative path is a run at its beginning, and nothing is left of them in an
absolute path, as the root is its own parent.
-/

namespace Stylesheets.Path

def push (anchored : Bool) (stack : List Text) (segment : Text) : List Text :=
  if segment = doubleDot then
    match stack with
    | [] => if anchored then [] else [doubleDot]
    | last :: before => if last = doubleDot then doubleDot :: stack else before
  else segment :: stack

def normalSegments (anchored : Bool) (segments : List Text) : List Text :=
  (segments.foldl (push anchored) []).reverse

def normalize (path : Path) : Path :=
  { path with segments := normalSegments path.isAbsolute path.segments }

def absolute (current path : Path) : Path := (current.append path).normalize

def commonLength : List Text → List Text → Nat
  | a :: first, b :: second => if a = b then commonLength first second + 1 else 0
  | _, _ => 0

def wayBetween (base path : List Text) : List Text :=
  let shared := commonLength base path
  List.replicate (base.length - shared) doubleDot ++ path.drop shared

def wayText (way : List Text) : Text :=
  if way.isEmpty then dot else joinSegments way

def relativeTo (current path base : Path) : Text :=
  wayText (wayBetween (absolute current base).segments (absolute current path).segments)

end Stylesheets.Path
