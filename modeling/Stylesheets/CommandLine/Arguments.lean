import Stylesheets.Text.Basic

/-!
# Arguments of a command

Options may stand anywhere among the arguments.  A long name takes its value
behind an equals sign or from the next argument; short names of one letter may
be run together, and what follows one that takes a value is its value.  Two
dashes alone end the options.
-/

namespace Stylesheets.CommandLine

inductive Switch where
  | parent
  | root
  | rootPath
  | exclude
  | assignment
  | content
  | dependencies
  | json
  | config
  | verbose
  | forceJsonLogs
  | version
  | help
  deriving DecidableEq, Repr

namespace Switch

def longNames : List (Text × Switch) := [
  ("parent".toList, parent),
  ("root".toList, root),
  ("root-path".toList, rootPath),
  ("exclude".toList, exclude),
  ("var".toList, assignment),
  ("content".toList, content),
  ("deps".toList, dependencies),
  ("json".toList, json),
  ("config".toList, config),
  ("verbose".toList, verbose),
  ("force-json-logs".toList, forceJsonLogs),
  ("version".toList, version),
  ("help".toList, help)]

def shortNames : List (Char × Switch) := [
  ('p', parent),
  ('r', root),
  ('e', exclude),
  ('c', config),
  ('v', verbose),
  ('h', help)]

def takesValue : Switch → Bool
  | parent => true
  | root => true
  | rootPath => true
  | exclude => true
  | assignment => true
  | config => true
  | _ => false

end Switch

structure Arguments where
  given : List (Switch × Text)
  targets : List Text
  deriving DecidableEq, Repr

namespace Arguments

def empty : Arguments := ⟨[], []⟩

def withSwitch (arguments : Arguments) (switch : Switch) (value : Text) : Arguments :=
  { arguments with given := arguments.given ++ [(switch, value)] }

def withTargets (arguments : Arguments) (targets : List Text) : Arguments :=
  { arguments with targets := arguments.targets ++ targets }

abbrev Reading := Arguments × Option Switch

def readLong (arguments : Arguments) (written : Text) : Option Reading :=
  match written.cut? '=' with
  | some (name, value) => do
    let switch ← Switch.longNames.lookup name
    if switch.takesValue then return (arguments.withSwitch switch value, none) else none
  | none => do
    let switch ← Switch.longNames.lookup written
    if switch.takesValue then return (arguments, some switch)
    else return (arguments.withSwitch switch [], none)

def readShort (arguments : Arguments) : Text → Option Reading
  | [] => some (arguments, none)
  | letter :: rest => do
    let switch ← Switch.shortNames.lookup letter
    if !switch.takesValue then readShort (arguments.withSwitch switch []) rest
    else if rest.isEmpty then return (arguments, some switch)
    else return (arguments.withSwitch switch rest, none)

def readOne (arguments : Arguments) (written : Text) : Option Reading :=
  match written with
  | '-' :: '-' :: name => readLong arguments name
  | '-' :: letter :: letters => readShort arguments (letter :: letters)
  | target => some (arguments.withTargets [target], none)

def endOfOptions : Text := ['-', '-']

def readFrom (reading : Reading) : List Text → Option Arguments
  | [] =>
    match reading with
    | (arguments, none) => some arguments
    | (_, some _) => none
  | written :: rest =>
    match reading with
    | (arguments, some switch) => readFrom (arguments.withSwitch switch written, none) rest
    | (arguments, none) =>
      if written = endOfOptions then some (arguments.withTargets rest)
      else (readOne arguments written).bind fun reading => readFrom reading rest

def read? (written : List Text) : Option Arguments := readFrom (empty, none) written

def has (arguments : Arguments) (switch : Switch) : Bool :=
  arguments.given.any fun item => item.1 == switch

def values (arguments : Arguments) (switch : Switch) : List Text :=
  arguments.given.filterMap fun item => if item.1 = switch then some item.2 else none

def value? (arguments : Arguments) (switch : Switch) : Option Text :=
  (arguments.values switch).getLast?

def inquiry? (arguments : Arguments) : Option Switch :=
  (arguments.given.map Prod.fst).find? fun switch => switch == .version || switch == .help

end Arguments

end Stylesheets.CommandLine
