import Stylesheets.FileTree.Walk
import Stylesheets.Fault

/-!
# Questions to a file tree

Nothing at a path is an answer; a name that is too long is a fault.
-/

namespace Stylesheets.FileTree

def leadsTo (tree : FileTree) (current path : Path) (test : Entry → Bool) :
    Except Fault Bool :=
  match tree.find? current path with
  | .ok entry => .ok (test entry)
  | .error .nameTooLong => .error (.breach .system)
  | .error _ => .ok false

def isFile (tree : FileTree) (current path : Path) : Except Fault Bool :=
  tree.leadsTo current path fun entry =>
    match entry with
    | .file _ => true
    | _ => false

def isDirectoryAt (tree : FileTree) (current path : Path) : Except Fault Bool :=
  tree.leadsTo current path fun entry =>
    match entry with
    | .directory => true
    | _ => false

def content? (tree : FileTree) (current path : Path) : Except Obstacle ByteArray :=
  match tree.find? current path with
  | .ok (.file content) => .ok content
  | .ok _ => .error .missing
  | .error obstacle => .error obstacle

variable {tree : FileTree} {current path : Path}

theorem leadsTo_eq_error_iff {test : Entry → Bool} {fault : Fault} :
    tree.leadsTo current path test = .error fault ↔
      tree.find? current path = .error .nameTooLong ∧ fault = .breach .system := by
  unfold leadsTo
  split
  · next hfind => simp [hfind]
  · next hfind => simp [hfind, eq_comm]
  · next obstacle hobstacle hfind =>
      have hne : obstacle ≠ .nameTooLong := hobstacle
      simp [hfind, hne]

theorem onlyBreaches_leadsTo (tree : FileTree) (current path : Path) (test : Entry → Bool) :
    Fault.OnlyBreaches (tree.leadsTo current path test) := by
  intro fault h
  exact ⟨.system, (leadsTo_eq_error_iff.mp h).2⟩

theorem isFile_eq_error_iff {fault : Fault} :
    tree.isFile current path = .error fault ↔
      tree.find? current path = .error .nameTooLong ∧ fault = .breach .system :=
  leadsTo_eq_error_iff

theorem isFile_of_content {bytes : ByteArray} (h : tree.content? current path = .ok bytes) :
    tree.isFile current path = .ok true := by
  unfold content? at h
  unfold isFile leadsTo
  split at h
  · next content hfind => simp only [hfind]
  · cases h
  · cases h

end Stylesheets.FileTree
