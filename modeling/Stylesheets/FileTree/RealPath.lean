import Stylesheets.FileTree.Query
import Stylesheets.Path.Normal

/-!
# Paths without links

Every link on a path is replaced by what it leads to; what does not exist is
kept as it is written.  A path through a link that leads back to itself keeps
that link and all that follows.
-/

namespace Stylesheets.FileTree

/-- What is known of the links met so far: where they lead, or that this is being found out. -/
abbrev KnownLinks := List (Address × Option Address)

inductive Resolution where
  | complete (address : Address) (known : KnownLinks)
  | looping (segments : List Text)

def resolveLinks (tree : FileTree) (fuel : Nat) (known : KnownLinks) (address : Address)
    (segments : List Text) : Resolution :=
  match segments with
  | [] => .complete address known
  | segment :: rest =>
    if !Path.isStep segment then resolveLinks tree fuel known address rest
    else if segment = Path.doubleDot then
      resolveLinks tree fuel known address.dropLast rest
    else
      let next := address ++ [segment]
      match tree.get? next with
      | some (.link target) =>
        match known.lookup next with
        | some (some found) => resolveLinks tree fuel known found rest
        | some none => .looping (next ++ rest)
        | none =>
          match fuel with
          | 0 => .looping (next ++ rest)
          | left + 1 =>
            let start := if isLinkToRoot target then [] else address
            match resolveLinks tree left ((next, none) :: known) start
                (target.splitOn '/') with
            | .looping segments => .looping (segments ++ rest)
            | .complete found learned =>
              resolveLinks tree (left + 1) ((next, some found) :: learned) found rest
      | _ => resolveLinks tree fuel known next rest
termination_by (fuel, segments.length)

/-- The absolute path without links and double dots; a path into a loop is a fault. -/
def realPath (tree : FileTree) (current path : Path) : Except Fault AbsolutePath :=
  if path.text.elem '\x00' then .error (.breach .invalidValue)
  else
    let start := if path.isAbsolute then [] else current.segments
    let segments :=
      match tree.resolveLinks (tree.entries.length + 1) [] start path.segments with
      | .complete address _ => address
      | .looping segments => Path.normalSegments true (segments.filter Path.isStep)
    let real : AbsolutePath := ⟨⟨.root, segments⟩, rfl⟩
    match tree.find? current real with
    | .error .linkLoop => .error (.breach .linkLoop)
    | _ => .ok real

theorem onlyBreaches_realPath (tree : FileTree) (current path : Path) :
    Fault.OnlyBreaches (tree.realPath current path) := by
  unfold realPath
  split
  · exact Fault.onlyBreaches_breach .invalidValue
  · simp only
    split
    · exact Fault.onlyBreaches_breach .linkLoop
    · exact Fault.onlyBreaches_ok _

end Stylesheets.FileTree
