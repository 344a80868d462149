import Stylesheets.Text.Basic

/-!
# Ranges of code points

A class of characters is a list of closed ranges of code points in increasing
order, so that a search may stop at the first range that ends at or after the
character.
-/

namespace Stylesheets.Text

abbrev CodeRange := Nat × Nat

def rangeOf? (code : Nat) : List CodeRange → Option CodeRange
  | [] => none
  | (first, last) :: later =>
    if last < code then rangeOf? code later
    else if first ≤ code then some (first, last) else none

def inRanges (code : Nat) (ranges : List CodeRange) : Bool :=
  (rangeOf? code ranges).isSome

end Stylesheets.Text
