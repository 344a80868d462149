import Stylesheets.Settings.Basic

/-!
# Settings from a configuration

A configuration is a table of settings, in which the roots go by two names and
other names say nothing.  Overrides come on top, unless they are empty.
-/

namespace Stylesheets.Settings

/-- Another name of the roots; of both names the later one counts. -/
def rootsAlias : Text := "load_paths".toList

def configured? (name : Text) : Option Setting :=
  if name = rootsAlias then some .roots else Setting.ofName? name

def ownNames (configuration : Table) : Table :=
  Table.ofList (configuration.filterMap fun (name, value) =>
    (configured? name).map fun setting => (setting.name, value))

/-- Nothing and an empty list override nothing. -/
def overrides : Value → Bool
  | .null => false
  | .list [] => false
  | _ => true

def override (table changes : Table) : Table :=
  (changes.filter fun change => overrides change.2).foldl
    (fun table change => table.insert change.1 change.2) table

def unknownNames (table : Table) : List Text :=
  ((table.map Prod.fst).filter fun name => (Setting.ofName? name).isNone).mergeSort
    Text.notAfter

def objection? (chosen : Table) : Option SettingsFault :=
  let unknown := unknownNames chosen
  let roots := (chosen.get? Setting.roots.name).getD (.list [])
  let bindings := (chosen.get? Setting.bindings.name).getD (.table [])
  if !unknown.isEmpty then some (.unknownNames unknown)
  else if !roots.isList then some (.rootsNotList roots.kindName)
  else if !bindings.isTable then some .variablesNotTable
  else none

/-- Roots must be texts here, even where the root path is at fault too. -/
def checkRoots (chosen : Table) : Except Fault Unit := do
  let roots ← itemsOf ((chosen.get? Setting.roots.name).getD (.list []))
  let _ ← roots.mapM textOf

def choose (configuration changes : Table) : Table := override (ownNames configuration) changes

def build (tree : FileTree) (current : Path) (configuration changes : Table) :
    Except Fault Settings := do
  let chosen := choose configuration changes
  match objection? chosen with
  | some fault => .error (.settings fault)
  | none =>
    checkRoots chosen
    ofTable tree current chosen

end Stylesheets.Settings
