import Stylesheets.Text.Letter

/-!
# Log levels

A level is given by name, in capitals or not; a name that is no level stands
for warnings.  Setting up the log leaves it with one handler that passes
nothing on.
-/

namespace Stylesheets.Log

/-- An ASCII capital; two of them are the capitals of letters beyond ASCII, too. -/
def asciiCapital (c : Char) : Char :=
  if c = 'ı' then 'I' else if c = 'ſ' then 'S' else c.toUpper

def levels : List (Text × Nat) := [
  ("NOTSET".toList, 0),
  ("DEBUG".toList, 10),
  ("INFO".toList, 20),
  ("WARNING".toList, 30),
  ("WARN".toList, 30),
  ("ERROR".toList, 40),
  ("CRITICAL".toList, 50),
  ("FATAL".toList, 50)]

def warningLevel : Nat := 30

def levelOf (name : Text) : Nat :=
  (levels.lookup (name.map asciiCapital)).getD warningLevel

structure Logger where
  level : Nat
  handlers : Nat
  propagates : Bool
  deriving DecidableEq, Repr

def Logger.configure (levelName : Text) : Logger where
  level := levelOf levelName
  handlers := 1
  propagates := false

end Stylesheets.Log
