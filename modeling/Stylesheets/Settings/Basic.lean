import Stylesheets.FileTree.RealPath

/-!
# Settings

Settings say where imports are looked up, which files may be imported, how
partial files and files in indented syntax are named, and which variables
templates see.  They are read from a table of values.  Sequences keep their
items as they are given, whatever their kind.
-/

namespace Stylesheets

inductive Setting where
  | roots
  | rootPath
  | extensions
  | prefixes
  | marker
  | excludes
  | bindings
  deriving DecidableEq, Repr

namespace Setting

def all : List Setting :=
  [roots, rootPath, extensions, prefixes, marker, excludes, bindings]

def name : Setting → Text
  | roots => "roots".toList
  | rootPath => "root_path".toList
  | extensions => "extensions".toList
  | prefixes => "partial_prefixes".toList
  | marker => "indented_marker".toList
  | excludes => "exclude_patterns".toList
  | bindings => "template_vars".toList

def ofName? (name : Text) : Option Setting := all.find? fun setting => setting.name == name

end Setting

structure Settings where
  roots : List Path
  rootPath : Path
  extensions : List Value
  prefixes : List Value
  marker : Value
  excludes : List Value
  bindings : Table
  roots_isAbsolute : ∀ root ∈ roots, root.isAbsolute = true
  rootPath_isAbsolute : rootPath.isAbsolute = true

namespace Settings

def defaultExtensions : List Text := [
  ".css.scss".toList, ".css.sass".toList, ".scss".toList, ".sass".toList,
  ".css".toList, ".scss.hbs".toList, ".css.hbs".toList, ".sass.hbs".toList]

def defaultPrefixes : List Text := [[], ['_']]

def defaultMarker : Text := ".sass".toList

def wrongKind : Except Fault α := .error (.breach .wrongKind)

def textOf (value : Value) : Except Fault Text :=
  match value.text? with
  | some text => .ok text
  | none => wrongKind

def itemsOf (value : Value) : Except Fault (List Value) :=
  match value.items? with
  | some items => .ok items
  | none => wrongKind

/-- What a value is called where it serves as a key; collections cannot. -/
def keyOf (value : Value) : Except Fault Text :=
  match value with
  | .list _ => wrongKind
  | .table _ => wrongKind
  | .null => .ok "null".toList
  | .bool true => .ok "true".toList
  | .bool false => .ok "false".toList
  | value => .ok value.display

def pairOf (value : Value) : Except Fault (Text × Value) := do
  match ← itemsOf value with
  | [key, held] => return (← keyOf key, held)
  | _ => .error (.breach .invalidValue)

def tableOf (value : Value) : Except Fault Table := do
  match value with
  | .table entries => return entries
  | value => return Table.ofList (← (← itemsOf value).mapM pairOf)

theorem textOf_eq_ok_iff {value : Value} {text : Text} :
    textOf value = .ok text ↔ value = .text text := by
  cases value <;> simp [textOf, Value.text?, wrongKind]

theorem mapM_textOf_eq_ok_iff {values : List Value} {texts : List Text} :
    values.mapM textOf = .ok texts ↔ values = texts.map .text := by
  rw [Fault.mapM_eq_ok_iff]
  induction values generalizing texts with
  | nil => cases texts <;> simp
  | cons value rest ih => cases texts <;> simp [textOf_eq_ok_iff, ih]

theorem onlyBreaches_textOf (value : Value) : Fault.OnlyBreaches (textOf value) := by
  unfold textOf
  split
  · exact Fault.onlyBreaches_ok _
  · exact Fault.onlyBreaches_breach .wrongKind

theorem onlyBreaches_itemsOf (value : Value) : Fault.OnlyBreaches (itemsOf value) := by
  unfold itemsOf
  split
  · exact Fault.onlyBreaches_ok _
  · exact Fault.onlyBreaches_breach .wrongKind

theorem onlyBreaches_keyOf (value : Value) : Fault.OnlyBreaches (keyOf value) := by
  unfold keyOf
  split <;> first | exact Fault.onlyBreaches_ok _ | exact Fault.onlyBreaches_breach .wrongKind

theorem onlyBreaches_pairOf (value : Value) : Fault.OnlyBreaches (pairOf value) := by
  refine (onlyBreaches_itemsOf value).bind fun items _ => ?_
  split
  · exact (onlyBreaches_keyOf _).bind fun _ _ => Fault.onlyBreaches_ok _
  · exact Fault.onlyBreaches_breach .invalidValue

theorem onlyBreaches_tableOf (value : Value) : Fault.OnlyBreaches (tableOf value) := by
  unfold tableOf
  split
  · exact Fault.onlyBreaches_ok _
  · refine (onlyBreaches_itemsOf _).bind fun items _ => ?_
    exact (Fault.OnlyBreaches.mapM onlyBreaches_pairOf items).bind fun _ _ =>
      Fault.onlyBreaches_ok _

/-! ## Reading settings -/

def rootOf (tree : FileTree) (current rootPath : Path) (value : Value) :
    Except Fault AbsolutePath := do
  tree.realPath current (rootPath.append (.ofText (← textOf value)))

def rootPathOf (tree : FileTree) (current : Path) (value : Value) :
    Except Fault AbsolutePath := do
  match value with
  | .null => tree.realPath current current
  | value => tree.realPath current (.ofText (← textOf value))

theorem onlyBreaches_rootOf (tree : FileTree) (current rootPath : Path) (value : Value) :
    Fault.OnlyBreaches (rootOf tree current rootPath value) :=
  (onlyBreaches_textOf value).bind fun _ _ => tree.onlyBreaches_realPath current _

theorem onlyBreaches_rootPathOf (tree : FileTree) (current : Path) (value : Value) :
    Fault.OnlyBreaches (rootPathOf tree current value) := by
  unfold rootPathOf
  split
  · exact tree.onlyBreaches_realPath current current
  · exact (onlyBreaches_textOf value).bind fun _ _ => tree.onlyBreaches_realPath current _

/-- Settings with some of the values given; the root path is a root if there is no other. -/
def ofValues (tree : FileTree) (current : Path) (given : Setting → Option Value) :
    Except Fault Settings := do
  let sequence := fun setting (default : List Text) =>
    match given setting with
    | some value => itemsOf value
    | none => .ok (default.map .text)
  let rootPath ← rootPathOf tree current ((given .rootPath).getD .null)
  let named ← sequence .roots []
  let roots ← named.mapM (rootOf tree current rootPath)
  let roots := if roots.isEmpty then [rootPath] else roots
  return {
    roots := roots.map Subtype.val
    rootPath := rootPath
    roots_isAbsolute := by simp +contextual
    rootPath_isAbsolute := rootPath.property
    extensions := ← sequence .extensions defaultExtensions
    prefixes := ← sequence .prefixes defaultPrefixes
    marker := (given .marker).getD (.text defaultMarker)
    excludes := ← sequence .excludes []
    bindings := ← tableOf ((given .bindings).getD (.table [])) }

def ofTable (tree : FileTree) (current : Path) (table : Table) : Except Fault Settings :=
  if table.all fun entry => (Setting.ofName? entry.1).isSome then
    ofValues tree current fun setting => table.get? setting.name
  else wrongKind

def value (settings : Settings) : Setting → Value
  | .roots => .list (settings.roots.map fun root => .text root.text)
  | .rootPath => .text settings.rootPath.text
  | .extensions => .list settings.extensions
  | .prefixes => .list settings.prefixes
  | .marker => settings.marker
  | .excludes => .list settings.excludes
  | .bindings => .table settings.bindings

def toTable (settings : Settings) : Table :=
  Setting.all.map fun setting => (setting.name, settings.value setting)

end Settings

end Stylesheets
