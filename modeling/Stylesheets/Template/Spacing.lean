import Stylesheets.Template.Syntax
import Stylesheets.Text.Blank

/-!
# White space around tags

Before a template is read, white space is taken out of it: next to a tilde
inside a tag, and on lines that hold nothing but tags of blocks and comments.
At the end of the template it is the line break before such tags that goes.
-/

namespace Stylesheets.Template

def isBrace (c : Char) : Bool := c == '\x7b' || c == '\x7d'

def isSpaceOrTab (c : Char) : Bool := c == ' ' || c == '\t'

structure LoneTags where
  marks : List Char
  allowElse : Bool

def LoneTags.inside : LoneTags := ⟨['#', '/', '!'], true⟩

def LoneTags.atBeginning : LoneTags := ⟨['#', '!'], false⟩

def LoneTags.atEnd : LoneTags := ⟨['/', '!'], false⟩

def LoneTags.allow (lone : LoneTags) (content : Text) : Bool :=
  match content with
  | [] => false
  | mark :: rest =>
    (lone.marks.elem mark && !rest.isEmpty) ||
      (lone.allowElse && (content == "else".toList ||
        ("else if ".toList.isPrefixOf content && 8 < content.length)))

def LoneTags.tag? (lone : LoneTags) (text : Text) : Option Text := do
  let inner ← openTag.isPrefixOf? (text.dropWhile isSpaceOrTab)
  let content := inner.takeWhile fun c => !isBrace c
  let rest ← closeTag.isPrefixOf? (inner.dropWhile fun c => !isBrace c)
  if lone.allow content then some (rest.dropWhile isSpaceOrTab) else none

def LoneTags.tags (lone : LoneTags) (fuel : Nat) (text : Text) : Text :=
  match fuel with
  | 0 => text
  | fuel + 1 =>
    match lone.tag? text with
    | none => text
    | some rest => tags lone fuel rest

def LoneTags.tags? (lone : LoneTags) (text : Text) : Option Text :=
  (lone.tag? text).map fun rest => lone.tags rest.length rest

def lineBreak? : Text → Option Text
  | '\n' :: rest => some rest
  | '\r' :: '\n' :: rest => some rest
  | _ => none

structure Place where
  atBeginning : Bool
  afterLineFeed : Bool

def afterTilde? (text : Text) : Option Text :=
  (('~' :: closeTag).isPrefixOf? text).map Text.trimStart

def beforeTilde? (text : Text) : Option Text :=
  (openTag ++ ['~']).isPrefixOf? text.trimStart

def loneLine? (place : Place) (text : Text) : Option Text :=
  let inside :=
    if place.afterLineFeed then (LoneTags.inside.tags? text).bind lineBreak? else none
  let beginning :=
    if place.atBeginning then (LoneTags.atBeginning.tags? text).bind lineBreak? else none
  let ending :=
    ((lineBreak? text).bind LoneTags.atEnd.tags?).bind fun rest =>
      if rest.isEmpty || rest == ['\n'] then some rest else none
  inside.or (beginning.or ending)

def stretch? (place : Place) (text : Text) : Option Text :=
  (afterTilde? text).or ((beforeTilde? text).or (loneLine? place text))

/-- Drops tildes inside tags and white space between them; two characters before are known. -/
def tidyFrom (before last : Char) : Text → Text
  | [] => []
  | c :: rest =>
    let afterOpen := before == '\x7b' && last == '\x7b'
    let afterClose := before == '\x7d' && last == '\x7d'
    if c = '~' ∧ (afterOpen ∨ closeTag.isPrefixOf rest) then tidyFrom last c rest
    else if isSpaceOrTab c ∧ afterClose ∧
        openTag.isPrefixOf (rest.dropWhile isSpaceOrTab) then
      tidyGap c rest
    else c :: tidyFrom last c rest
where
  tidyGap (last : Char) : Text → Text
    | [] => []
    | c :: rest =>
      if isSpaceOrTab c then tidyGap c rest else c :: tidyFrom last c rest

def tidy (text : Text) : Text := tidyFrom ' ' ' ' text.trim

def placeAfter (c : Char) : Place := ⟨false, c == '\n'⟩

/--
Tidies a template stretch by stretch.  A stretch that is found takes at least
one character, so the length of the text is fuel enough.
-/
def respace (fuel : Nat) (place : Place) (text : Text) : Text :=
  match fuel, text with
  | _, [] => []
  | 0, _ => text
  | fuel + 1, c :: rest =>
    match stretch? place text with
    | none => c :: respace fuel (placeAfter c) rest
    | some after =>
      let taken := text.take (text.length - after.length)
      tidy taken ++ respace fuel (placeAfter (taken.getLastD c)) after

def normalizeSpacing (text : Text) : Text :=
  respace text.length ⟨true, false⟩ text

end Stylesheets.Template
