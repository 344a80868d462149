import Stylesheets.Import.Dialect
import Stylesheets.Import.Expansion

/-!
# The content of an import

A file that is imported goes through its processors; a file in indented syntax
is converted afterwards.  A file is recorded before its content is read, so
that a file at fault is recorded as well.
-/

namespace Stylesheets

structure ImportedFile where
  path : Path
  content : Text
  deriving DecidableEq, Repr

namespace Dialect

def converted : Dialect → Text → Except Fault Text
  | standard, text => .ok text
  | indented, text =>
    (Indented.convert text).mapError fun cause => .evaluation (.indentation cause)

end Dialect

namespace Importer

def content (importer : Importer) (dialect : Option Dialect) (path : Path) :
    Except Fault ImportedFile := do
  let dialect ←
    match dialect with
    | some dialect => pure dialect
    | none => Dialect.ofPathWith importer.naming.marker path
  let processors := (Attributes.ofName path.name).processors
  let text ← importer.catalog.evaluate importer.tree importer.current path processors
  return { path, content := ← dialect.converted text }

def contents (importer : Importer) (paths : List Path) : Except Fault (List ImportedFile) :=
  paths.mapM (importer.content none)

def imports (importer : Importer) (spelling parent : Text) : Answered (List ImportedFile) :=
  let found :=
    if Glob.isGlob spelling then importer.expand spelling parent
    else (importer.resolve spelling (some parent)).map Option.toList
  ⟨found.outcome.bind importer.contents, found.recorded⟩

end Importer

end Stylesheets
