/-!
# Text as a list of characters

Every rule of this library that reads or writes text is a rule about lists of
characters, so that it can be reasoned about by induction on the text.
-/

namespace Stylesheets

abbrev Text := List Char

namespace Text

def contains : Text → Text → Bool
  | [], needle => needle.isEmpty
  | c :: rest, needle => needle.isPrefixOf (c :: rest) || contains rest needle

def cut? (mark : Char) : Text → Option (Text × Text)
  | [] => none
  | c :: rest =>
    if c = mark then some ([], rest)
    else (cut? mark rest).map fun (before, after) => (c :: before, after)

def precedes : Text → Text → Bool
  | _, [] => false
  | [], _ :: _ => true
  | a :: first, b :: second =>
    if a = b then precedes first second else decide (a.toNat < b.toNat)

def notAfter (first second : Text) : Bool := !precedes second first

def unifyLineEnds : Text → Text
  | [] => []
  | '\r' :: '\n' :: rest => '\n' :: unifyLineEnds rest
  | c :: rest => c :: unifyLineEnds rest

def lineFeedsOnly : Text → Text
  | [] => []
  | '\r' :: '\n' :: rest => '\n' :: lineFeedsOnly rest
  | c :: rest => (if c = '\r' then '\n' else c) :: lineFeedsOnly rest

def dropEndWhile (test : Char → Bool) (text : Text) : Text :=
  (text.reverse.dropWhile test).reverse

end Text

end Stylesheets
