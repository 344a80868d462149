import Stylesheets.Import.Content

/-!
# Sessions

A session is a sequence of requests to one catalog.  Several compilations may
go on side by side, each with the dependencies recorded so far; the requests
go to the one that is current.  Files may change between requests.
-/

namespace Stylesheets

structure Compilation where
  compiling : Option Path
  dependencies : List Path
  deriving DecidableEq, Repr

inductive Request where
  | imports (spelling parent : Text)
  | resolve (spelling : Text) (parent : Option Text)
  | find (spelling : Text) (parent : Option Text)
  | expand (spelling parent : Text)
  | globSpec (spelling parent : Text)
  | importingFile (parent : Text)
  | globbed (base : Path) (pattern : Text) (leftOut : List Path)
  | candidates (spelling : Text) (parent : Option Text)
  | tryPaths (candidate : Text)
  | isRequirable (path : Path)
  | matchKey (path : Path)
  | attributes (path : Path)
  | preprocessors (contentType : Text)
  | processors (path : Path)
  | evaluate (path : Path) (processors : List Processor)
  | content (path : Path) (dialect : Option Text)
  | dependOn (path : Path)
  | compile (compiling : Option Path)
  | use (number : Nat)
  | put (path : Path) (entry : Entry)
  | delete (path : Path)

inductive Answer where
  | done
  | file (found : Option Path)
  | paths (paths : List Path)
  | content (file : ImportedFile)
  | files (files : List ImportedFile)
  | globSpec (spec : GlobSpec)
  | text (text : Text)
  | texts (texts : List Text)
  | decision (holds : Bool)
  | attributes (attributes : Attributes)
  | processors (processors : List Processor)

structure Session where
  catalog : Catalog
  naming : Naming
  current : Path
  tree : FileTree
  compilations : List Compilation
  active : Nat
  active_lt : active < compilations.length

namespace Session

def compilation (session : Session) : Compilation :=
  session.compilations.get ⟨session.active, session.active_lt⟩

def dependencies (session : Session) : List Path := session.compilation.dependencies

def record (session : Session) (paths : List Path) : Session :=
  { session with
    compilations := session.compilations.modify session.active fun compilation =>
      { compilation with dependencies := compilation.dependencies ++ paths }
    active_lt := by simpa using session.active_lt }

def begin (session : Session) (compiling : Option Path) : Session :=
  { session with
    compilations := session.compilations ++ [⟨compiling, []⟩]
    active := session.compilations.length
    active_lt := by simp }

def resume (session : Session) (number : Nat) : Session :=
  if h : number < session.compilations.length then
    { session with active := number, active_lt := h }
  else session

def start (libraries : Libraries) (tree : FileTree) (current : Path) (settings : Settings)
    (naming : Naming) (compiling : Option Path) : Except Fault Session := do
  let catalog ← Catalog.ofSettings libraries settings
  return {
    catalog, naming, current, tree
    compilations := [⟨compiling, []⟩]
    active := 0
    active_lt := by simp }

def importer (session : Session) : Importer where
  catalog := session.catalog
  naming := session.naming
  tree := session.tree
  current := session.current
  compiling := session.compilation.compiling

def globbed (session : Session) (base : Path) (pattern : Text) (leftOut : List Path) :
    Except Fault (List Path) :=
  match Glob.kind? pattern with
  | some kind => session.importer.globbed base kind leftOut
  | none => .error (.breach .invalidValue)

def content (session : Session) (path : Path) (dialect : Option Text) :
    Except Fault ImportedFile :=
  match dialect with
  | none => session.importer.content none path
  | some name =>
    match Dialect.ofName? name with
    | some dialect => session.importer.content (some dialect) path
    | none => .error (.breach .invalidValue)

def ask (session : Session) : Request → Answered Answer
  | .imports spelling parent => (session.importer.imports spelling parent).map .files
  | .resolve spelling parent => (session.importer.resolve spelling parent).map .file
  | .find spelling parent => .silent ((session.importer.find spelling parent).map .file)
  | .expand spelling parent => (session.importer.expand spelling parent).map .paths
  | .globSpec spelling parent =>
    .silent ((session.importer.globSpec spelling parent).map .globSpec)
  | .importingFile parent =>
    .silent ((session.importer.importingFile parent).map fun path => .file (some path))
  | .globbed base pattern leftOut =>
    .silent ((session.globbed base pattern leftOut).map .paths)
  | .candidates spelling parent =>
    .silent ((session.importer.candidates spelling parent).map .texts)
  | .tryPaths candidate => .silent (.ok (.paths (session.catalog.tryPaths candidate)))
  | .isRequirable path => .silent ((session.importer.isRequirable path).map .decision)
  | .matchKey path => .silent (.ok (.text (session.catalog.matchKey path)))
  | .attributes path => .silent (.ok (.attributes (Attributes.ofName path.name)))
  | .preprocessors contentType =>
    .silent (.ok (.processors (ContentType.ofText contentType).preprocessors))
  | .processors path =>
    .silent (.ok (.texts ((Attributes.ofName path.name).processors.map Processor.name)))
  | .evaluate path processors =>
    .silent ((session.catalog.evaluate session.tree session.current path processors).map .text)
  | .content path dialect =>
    .silent ((session.content path dialect).map .content)
  | .dependOn path => ⟨.ok .done, [path]⟩
  | .compile compiling => .silent (.ok (.file compiling))
  | .use number =>
    match session.compilations[number]? with
    | some compilation => .silent (.ok (.file compilation.compiling))
    | none => .silent (.error (.breach .offsetOutside))
  | .put _ _ => .silent (.ok .done)
  | .delete _ => .silent (.ok .done)

def move (session : Session) : Request → Session
  | .compile compiling => session.begin compiling
  | .use number => session.resume number
  | .put path entry => { session with tree := session.tree.put session.current path entry }
  | .delete path => { session with tree := session.tree.remove session.current path }
  | _ => session

/-- Carries out a request; a fault does not end the session. -/
def perform (session : Session) (request : Request) : Session × Except Fault Answer :=
  let answered := session.ask request
  ((session.record answered.recorded).move request, answered.outcome)

end Session

end Stylesheets
