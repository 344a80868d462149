import Stylesheets.Path.Normal
import Stylesheets.Path.Spelling
import Stylesheets.Path.Root

/-!
# Candidates

An import names a directory and a file.  The directory is searched as it is
written, and before that beside the importing file, if that file does not lie
directly in the root that holds it.  In each of them the file name is tried
with every prefix.
-/

namespace Stylesheets

structure Scope where
  roots : List Path
  rootPath : Path
  current : Path
  deriving DecidableEq, Repr

namespace Scope

def parentDirectory (scope : Scope) (parent : Text) : Path :=
  (scope.rootPath.append (.ofText parent)).parent

def holdingRoot (scope : Scope) (directory : Path) : Path :=
  directory.longestRoot scope.roots scope.rootPath

def searchPaths (scope : Scope) (directory : Text) (parent : Option Text) : List Text :=
  match parent with
  | none => [directory]
  | some parent =>
    let beside := scope.parentDirectory parent
    let root := scope.holdingRoot beside
    if Spelling.isAbsolute directory || beside = root then [directory]
    else
      let way := Path.relativeTo scope.current beside root
      [Spelling.join way [directory], directory]

def candidatesIn (prefixes : List Text) (file directory : Text) : List Text :=
  prefixes.map fun start => Spelling.join directory [start ++ file]

def candidates (scope : Scope) (spelling : Text) (parent : Option Text)
    (prefixes : List Text) : List Text :=
  (scope.searchPaths (Spelling.directory spelling) parent).flatMap
    (candidatesIn prefixes (Spelling.fileName spelling))

end Scope

end Stylesheets
