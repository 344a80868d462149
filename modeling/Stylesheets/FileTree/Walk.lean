import Stylesheets.FileTree.Basic
import Stylesheets.Text.Bytes

/-!
# Walking through a file tree

A walk takes one segment after the other, follows the links it meets, and goes
up physically at a double dot.  It ends at the address of an existing entry or
at an obstacle.
-/

namespace Stylesheets

inductive Obstacle where
  | missing
  | notDirectory
  | nameTooLong
  | linkLoop
  | nullCharacter
  deriving DecidableEq, Repr

namespace FileTree

def maxNameBytes : Nat := 255

def maxPathBytes : Nat := 4095

def maxLinks : Nat := 40

def isLinkToRoot (target : Text) : Bool := "/".toList.isPrefixOf target

/-- Walks from a directory; a link at the very end is followed only on request. -/
def walk (tree : FileTree) (followLast : Bool) (links : Nat) (address : Address)
    (segments : List Text) : Except Obstacle Address :=
  match segments with
  | [] => .ok address
  | segment :: rest =>
    if !tree.isDirectory address then .error .notDirectory
    else if !Path.isStep segment then walk tree followLast links address rest
    else if segment = Path.doubleDot then
      walk tree followLast links address.dropLast rest
    else if maxNameBytes < Text.byteLength segment then .error .nameTooLong
    else
      match tree.get? (address ++ [segment]) with
      | none => .error .missing
      | some (.link target) =>
        if rest.isEmpty && !followLast then .ok (address ++ [segment])
        else
          match links with
          | 0 => .error .linkLoop
          | left + 1 =>
            walk tree followLast left (if isLinkToRoot target then [] else address)
              (target.splitOn '/' ++ rest)
      | some _ => walk tree followLast links (address ++ [segment]) rest
termination_by (links, segments.length)

def locate (tree : FileTree) (followLast : Bool) (current path : Path) :
    Except Obstacle Address :=
  if path.text.elem '\x00' then .error .nullCharacter
  else if maxPathBytes < Text.byteLength path.text then .error .nameTooLong
  else
    tree.walk followLast maxLinks (if path.isAbsolute then [] else current.segments)
      path.segments

def find? (tree : FileTree) (current path : Path) : Except Obstacle Entry :=
  match tree.locate true current path with
  | .error obstacle => .error obstacle
  | .ok address =>
    match tree.get? address with
    | none => .error .missing
    | some entry => .ok entry

def enter (state : FileTree × Address) (name : Text) : FileTree × Address :=
  let (tree, address) := state
  match tree.walk true maxLinks address [name] with
  | .ok inside => (tree, inside)
  | .error _ => (tree.insert (address ++ [name]) .directory, address ++ [name])

def put (tree : FileTree) (current path : Path) (entry : Entry) : FileTree :=
  let start := if path.isAbsolute then [] else current.segments
  let (grown, address) := path.segments.dropLast.foldl enter (tree, start)
  match entry with
  | .directory => (enter (grown, address) path.name).1
  | .link _ => grown.insert (address ++ [path.name]) entry
  | .file _ =>
    match grown.walk true maxLinks address [path.name] with
    | .ok held => grown.insert held entry
    | .error _ => grown.insert (address ++ [path.name]) entry

def remove (tree : FileTree) (current path : Path) : FileTree :=
  match tree.locate false current path with
  | .ok address => tree.erase address
  | .error _ => tree

end FileTree

end Stylesheets
