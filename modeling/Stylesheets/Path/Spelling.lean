import Stylesheets.Path.Basic

/-!
# Paths as they are spelled

An import names its target by a text.  The directory and the file name are
taken from the text as it is spelled, so that dots and repeated slashes inside
it survive until the text is read as a path.
-/

namespace Stylesheets.Spelling

def isSlash (c : Char) : Bool := c == '/'

def fileName (spelling : Text) : Text :=
  ((spelling.reverse.dropWhile isSlash).takeWhile fun c => !isSlash c).reverse

def leading (spelling : Text) : Text :=
  (((spelling.reverse.dropWhile isSlash).dropWhile fun c => !isSlash c).dropWhile
    isSlash).reverse

def directory (spelling : Text) : Text :=
  let before := leading spelling
  if !before.isEmpty then before
  else if "/".toList.isPrefixOf spelling then ['/'] else Path.dot

/-- The second text below the first, unless it begins with a slash and stands for itself. -/
def beside (first second : Text) : Text :=
  if "/".toList.isPrefixOf second then second
  else if first.isEmpty || "/".toList.isSuffixOf first then first ++ second
  else first ++ '/' :: second

/-- Joins parts to a directory; the single dot and empty parts add nothing. -/
def join (directory : Text) (parts : List Text) : Text :=
  let remainder := (parts.filter Path.isStep).foldl beside []
  if directory = Path.dot then (if remainder.isEmpty then Path.dot else remainder)
  else if remainder.isEmpty then directory
  else beside directory remainder

def isAbsolute (spelling : Text) : Bool := "/".toList.isPrefixOf spelling

end Stylesheets.Spelling
