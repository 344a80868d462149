import Stylesheets.CommandLine.Command
import Stylesheets.FileTree.Snapshot
import Stylesheets.Libraries.Standard

/-!
# The program

Reads a file tree from standard input, runs the command in it and prints what
the command has to say.
-/

namespace Stylesheets

def unreadableTreeCode : UInt32 := 3

def runIn (input : String) (written : List String) : IO UInt32 := do
  match Snapshot.read? input.toList with
  | none => return unreadableTreeCode
  | some snapshot =>
    let outcome :=
      CommandLine.run .standard snapshot.tree snapshot.current (written.map String.toList)
    match outcome with
    | .misused => pure ()
    | .finished _ output complaint =>
      (← IO.getStdout).putStr (String.ofList output)
      (← IO.getStderr).putStr (String.ofList complaint)
    return outcome.exitCode.toUInt32

end Stylesheets

def main (written : List String) : IO UInt32 := do
  Stylesheets.runIn (← (← IO.getStdin).readToEnd) written
