import Stylesheets.Path.Basic

/-!
# The root that holds a directory

Among several roots, a directory counts to the one with the longest written
form that its own written form begins with.
-/

namespace Stylesheets.Path

def startsWithRoot (path root : Path) : Bool := root.text.isPrefixOf path.text

def longer (best : Option Path) (root : Path) : Option Path :=
  match best with
  | none => some root
  | some held => if held.text.length < root.text.length then some root else best

/-- The longest root that contains the directory; of equals the first. -/
def longestRoot? (directory : Path) (roots : List Path) : Option Path :=
  (roots.filter directory.startsWithRoot).foldl longer none

def longestRoot (directory : Path) (roots : List Path) (fallback : Path) : Path :=
  (directory.longestRoot? roots).getD fallback

end Stylesheets.Path
