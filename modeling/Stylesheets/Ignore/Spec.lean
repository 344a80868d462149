import Stylesheets.Ignore.Language
import Stylesheets.Ignore.Pattern

/-!
# Which files are ignored

Of the patterns in order, the last one that matches a file decides.
-/

namespace Stylesheets.Ignore

structure Spec where
  patterns : List Pattern
  deriving DecidableEq, Repr

namespace Spec

def readItem? (item : Value) : Option (Option Pattern) :=
  if !item.isTruthy then some none
  else item.text?.bind parse?

def ofItems? (items : List Value) : Option Spec :=
  (items.mapM readItem?).map fun found => ⟨found.filterMap id⟩

/-- A slash at the beginning, or a dot and a slash, say nothing about a file. -/
def fileKey : Text → Text
  | '/' :: rest => rest
  | '.' :: '/' :: rest => rest
  | file => file

def decide (file : Text) (verdict : Bool) : List Pattern → Bool
  | [] => verdict
  | pattern :: rest =>
    decide file (if matchesAll pattern.parts file then pattern.excludes else verdict) rest

def excludes (spec : Spec) (file : Text) : Bool :=
  decide (fileKey file) false spec.patterns

end Spec

def gitLike : Language where
  read? items := (Spec.ofItems? items).map Spec.excludes

end Stylesheets.Ignore
