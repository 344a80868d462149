import Stylesheets.Import.Expansion

/-!
# Lookups without faults of their own

Looking files up is no fault by itself: what can go wrong in it are breaches,
such as names that are too long and settings of the wrong kind.  This goes for
a search as for the files that a glob import lists.
-/

namespace Stylesheets

open Fault

theorem Catalog.onlyBreaches_hasExtension (name : Text) (extensions : List Value) :
    OnlyBreaches (hasExtension name extensions) := by
  fun_induction hasExtension name extensions with
  | case1 => exact onlyBreaches_ok false
  | case2 extension rest hends => exact onlyBreaches_ok true
  | case3 extension rest hends ih => exact ih
  | case4 => exact onlyBreaches_breach .wrongKind

theorem Catalog.onlyBreaches_isRequirable (catalog : Catalog) (tree : FileTree)
    (current path : Path) : OnlyBreaches (catalog.isRequirable tree current path) := by
  refine (tree.onlyBreaches_leadsTo current path _).bind fun isFile _ => ?_
  cases isFile with
  | false => exact onlyBreaches_ok false
  | true =>
      refine (onlyBreaches_hasExtension path.name _).bind fun hasExtension _ => ?_
      cases hasExtension with
      | false => exact onlyBreaches_ok false
      | true => exact onlyBreaches_ok _

namespace Search

variable {source : Source}

theorem onlyBreaches_overPaths (hsource : ∀ path, OnlyBreaches (source.isRequirable path))
    {otherwise : Search} (hotherwise : OnlyBreaches otherwise.outcome) (paths : List Path) :
    OnlyBreaches (overPaths source otherwise paths).outcome := by
  induction paths with
  | nil => exact hotherwise
  | cons path rest ih =>
      unfold overPaths
      split
      · next fault hfault =>
          obtain ⟨cause, rfl⟩ := hsource path fault hfault
          exact onlyBreaches_breach cause
      · exact onlyBreaches_ok (some path)
      · exact ih

theorem onlyBreaches_overCandidates (hsource : ∀ path, OnlyBreaches (source.isRequirable path))
    (candidates : List Text) : OnlyBreaches (overCandidates source candidates).outcome := by
  induction candidates with
  | nil => exact onlyBreaches_ok none
  | cons candidate rest ih => exact onlyBreaches_overPaths hsource ih (source.tryPaths candidate)

end Search

namespace Importer

theorem onlyBreaches_find (importer : Importer) (spelling : Text) (parent : Option Text) :
    OnlyBreaches (importer.find spelling parent) := by
  have hresolver : OnlyBreaches importer.resolver :=
    (OnlyBreaches.mapM Settings.onlyBreaches_textOf importer.naming.prefixes).bind
      fun prefixes _ => onlyBreaches_ok _
  refine hresolver.bind fun resolver hresolved => ?_
  obtain ⟨prefixes, -, hwith⟩ := Fault.bind_eq_ok_iff.mp hresolved
  obtain rfl := Except.ok.inj hwith
  exact OnlyBreaches.map (Search.onlyBreaches_overCandidates
    (importer.catalog.onlyBreaches_isRequirable importer.tree importer.current) _) _

theorem onlyBreaches_importable {isRequirable : Path → Except Fault Bool}
    (h : ∀ path, OnlyBreaches (isRequirable path)) (leftOut paths : List Path) :
    OnlyBreaches (Glob.importable isRequirable leftOut paths) := by
  induction paths with
  | nil => exact onlyBreaches_ok []
  | cons path rest ih =>
      unfold Glob.importable
      split
      · exact ih
      · refine (h path).bind fun answer _ => ?_
        cases answer with
        | false => exact ih
        | true => exact ih.bind fun files _ => onlyBreaches_ok (path :: files)

theorem onlyBreaches_globbed (importer : Importer) (base : Path) (kind : GlobKind)
    (leftOut : List Path) : OnlyBreaches (importer.globbed base kind leftOut) := by
  have hentries : OnlyBreaches (Glob.entries importer.tree importer.current base kind) := by
    refine (importer.tree.onlyBreaches_leadsTo importer.current base _).bind
      fun isDirectory _ => ?_
    cases isDirectory with
    | false => exact onlyBreaches_ok []
    | true =>
        simp only [Bool.not_true, Bool.false_eq_true, if_false]
        split <;> exact onlyBreaches_ok _
  refine hentries.bind fun entries _ => onlyBreaches_importable ?_ _ _
  exact importer.catalog.onlyBreaches_isRequirable importer.tree importer.current

end Importer

end Stylesheets
