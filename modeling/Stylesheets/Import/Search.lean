import Stylesheets.Import.Candidate
import Stylesheets.Fault

/-!
# The search for a file

Each candidate stands for a list of paths.  They are tested one by one, and
the first that may be imported ends the search: no later path is tested and
no later candidate is expanded.
-/

namespace Stylesheets

structure Source where
  tryPaths : Text → List Path
  isRequirable : Path → Except Fault Bool

inductive Probe where
  | expanded (candidate : Text)
  | tested (path : Path)
  deriving DecidableEq, Repr

structure Search where
  probes : List Probe
  outcome : Except Fault (Option Path)

namespace Search

def after (probe : Probe) (search : Search) : Search :=
  { search with probes := probe :: search.probes }

def nothing : Search := ⟨[], .ok none⟩

/-- Tests paths in order; without success the search goes on elsewhere. -/
def overPaths (source : Source) (otherwise : Search) : List Path → Search
  | [] => otherwise
  | path :: rest =>
    match source.isRequirable path with
    | .error fault => ⟨[.tested path], .error fault⟩
    | .ok true => ⟨[.tested path], .ok (some path)⟩
    | .ok false => (overPaths source otherwise rest).after (.tested path)

def overCandidates (source : Source) : List Text → Search
  | [] => nothing
  | candidate :: rest =>
    (overPaths source (overCandidates source rest) (source.tryPaths candidate)).after
      (.expanded candidate)

def asked (search : Search) : List Text :=
  search.probes.filterMap fun
    | .expanded candidate => some candidate
    | .tested _ => none

def checked (search : Search) : List Path :=
  search.probes.filterMap fun
    | .expanded _ => none
    | .tested path => some path

end Search

structure Resolver where
  scope : Scope
  source : Source
  prefixes : List Text

namespace Resolver

def candidates (resolver : Resolver) (spelling : Text) (parent : Option Text) :
    List Text :=
  resolver.scope.candidates spelling parent resolver.prefixes

def search (resolver : Resolver) (spelling : Text) (parent : Option Text) : Search :=
  .overCandidates resolver.source (resolver.candidates spelling parent)

def find (resolver : Resolver) (spelling : Text) (parent : Option Text) :
    Except Fault (Option Path) :=
  (resolver.search spelling parent).outcome.map fun found =>
    found.map resolver.scope.rootPath.append

end Resolver

end Stylesheets
