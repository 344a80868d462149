import Stylesheets.Proofs.Settings.Loading
import Stylesheets.Proofs.Settings.Precedence

/-!
# What settings are built from

A sequence of settings has the elements of the value that is configured for it.
Roots are the only sequence that has to be a list.  Where no settings can be
built, the faults that have a message are few: the others are breaches.
-/

namespace Stylesheets

open Fault

namespace Settings

variable {tree : FileTree} {current : Path} {given : Setting → Option Value} {settings : Settings}

/-- The elements of a value: a text is taken apart into its characters, a table into its keys. -/
inductive Elements (default : List Text) : Option Value → List Value → Prop
  | missing : Elements default none (default.map .text)
  | list (items : List Value) : Elements default (some (.list items)) items
  | text (text : Text) : Elements default (some (.text text)) (text.map fun c => .text [c])
  | table (entries : Table) :
      Elements default (some (.table entries)) (entries.map fun entry => .text entry.1)

def sequenceOf (default : List Text) : Option Value → Except Fault (List Value)
  | some value => itemsOf value
  | none => .ok (default.map .text)

theorem sequenceOf_eq_ok_iff {default : List Text} {value : Option Value} {items : List Value} :
    sequenceOf default value = .ok items ↔ Elements default value items := by
  constructor
  · intro h
    cases value with
    | none =>
        obtain rfl := Except.ok.inj h
        exact .missing
    | some value =>
        cases value with
        | list held =>
            obtain rfl := Except.ok.inj h
            exact .list _
        | text text =>
            obtain rfl := Except.ok.inj h
            exact .text text
        | table entries =>
            obtain rfl := Except.ok.inj h
            exact .table entries
        | _ => cases h
  · intro h
    cases h <;> rfl

theorem sequenceOf_eq_itemsOf (default : List Text) (value : Option Value) :
    sequenceOf default value = itemsOf (value.getD (.list (default.map .text))) := by
  cases value <;> rfl

theorem onlyBreaches_sequenceOf (default : List Text) (value : Option Value) :
    OnlyBreaches (sequenceOf default value) := by
  cases value with
  | none => exact onlyBreaches_ok _
  | some value => exact onlyBreaches_itemsOf value

theorem eq_list_of_itemsOf {value : Value} {items : List Value} (hlist : value.isList = true)
    (h : itemsOf value = .ok items) : value = .list items := by
  cases value with
  | list held => rw [Except.ok.inj h]
  | _ => cases hlist

/-- The path that the root path is given by; without one it is the current directory. -/
inductive RootPathGiven (current : Path) : Option Value → Path → Prop
  | missing : RootPathGiven current none current
  | null : RootPathGiven current (some .null) current
  | text (text : Text) : RootPathGiven current (some (.text text)) (.ofText text)

def realRoot (tree : FileTree) (current rootPath : Path) (text : Text) : Except Fault Path :=
  (tree.realPath current (rootPath.append (.ofText text))).map Subtype.val

/-- The roots that texts name, each at its real path; if there are none the root path is one. -/
inductive RootsAt (tree : FileTree) (current rootPath : Path) : List Text → List Path → Prop
  | alone : RootsAt tree current rootPath [] [rootPath]
  | listed {texts : List Text} {roots : List Path} (hsome : texts ≠ [])
      (hreal : texts.map (realRoot tree current rootPath) = roots.map .ok) :
      RootsAt tree current rootPath texts roots

theorem rootPathOf_of_given {value : Option Value} {path : Path}
    (h : RootPathGiven current value path) :
    rootPathOf tree current (value.getD .null) = tree.realPath current path := by
  cases h <;> rfl

theorem rootPathOf_eq_ok_iff {value : Option Value} {rootPath : AbsolutePath} :
    rootPathOf tree current (value.getD .null) = .ok rootPath ↔
      ∃ path, RootPathGiven current value path ∧ tree.realPath current path = .ok rootPath := by
  constructor
  · intro h
    cases value with
    | none => exact ⟨current, .missing, h⟩
    | some value =>
        cases value with
        | null => exact ⟨current, .null, h⟩
        | text text => exact ⟨.ofText text, .text text, h⟩
        | _ => cases h
  · rintro ⟨path, hgiven, hreal⟩
    rw [rootPathOf_of_given hgiven, hreal]

theorem mapM_rootOf_eq_ok_iff {rootPath : Path} {texts : List Text} {found : List AbsolutePath} :
    (texts.map Value.text).mapM (rootOf tree current rootPath) = .ok found ↔
      texts.map (realRoot tree current rootPath) = (found.map Subtype.val).map .ok := by
  have hroot : ∀ text : Text, rootOf tree current rootPath (.text text) =
      tree.realPath current (rootPath.append (.ofText text)) := fun _ => rfl
  rw [mapM_eq_ok_iff, List.map_map]
  induction texts generalizing found with
  | nil => cases found <;> simp
  | cons text rest ih =>
      cases found with
      | nil => simp
      | cons root others =>
          simp only [List.map_cons, List.cons.injEq, ih, Function.comp, hroot, realRoot]
          refine and_congr_left fun _ => ?_
          cases tree.realPath current (rootPath.append (.ofText text)) <;>
            simp [Except.map, Subtype.ext_iff]

/-! ## Settings that follow what is given -/

structure Follows (tree : FileTree) (current : Path) (given : Setting → Option Value)
    (settings : Settings) : Prop where
  rootPath : ∃ path, RootPathGiven current (given .rootPath) path ∧
    tree.realPath current path = .ok ⟨settings.rootPath, settings.rootPath_isAbsolute⟩
  roots : ∃ texts : List Text, (given .roots).getD (.list []) = .list (texts.map .text) ∧
    RootsAt tree current settings.rootPath texts settings.roots
  extensions : Elements defaultExtensions (given .extensions) settings.extensions
  prefixes : Elements defaultPrefixes (given .prefixes) settings.prefixes
  marker : settings.marker = (given .marker).getD (.text defaultMarker)
  excludes : Elements [] (given .excludes) settings.excludes
  bindings : (given .bindings).getD (.table []) = .table settings.bindings

/-- The checks that have a message of their own. -/
structure Checked (given : Setting → Option Value) : Prop where
  roots : ((given .roots).getD (.list [])).isList = true
  bindings : ((given .bindings).getD (.table [])).isTable = true

theorem buildFrom_of_checked (h : Checked given) :
    buildFrom tree current given = (do
      let _ ← (← itemsOf ((given .roots).getD (.list []))).mapM textOf
      ofValues tree current given) := by
  simp only [buildFrom, h.roots, h.bindings, Bool.not_true, Bool.false_eq_true, if_false]

theorem exists_cause_of_not_checked (h : ¬ Checked given) :
    ∃ cause, buildFrom tree current given = .error (.settings cause) := by
  by_cases hroots : ((given .roots).getD (.list [])).isList = true
  · have hbindings : ((given .bindings).getD (.table [])).isTable = false :=
      Bool.eq_false_iff.mpr fun hbindings => h ⟨hroots, hbindings⟩
    exact ⟨.variablesNotTable, by simp [buildFrom, hroots, hbindings]⟩
  · exact ⟨.rootsNotList ((given .roots).getD (.list [])).kindName, by simp [buildFrom, hroots]⟩

theorem checked_of_forall_ne
    (h : ∀ cause, buildFrom tree current given ≠ .error (.settings cause)) : Checked given := by
  by_contra hnot
  obtain ⟨cause, hcause⟩ := @exists_cause_of_not_checked tree current given hnot
  exact h cause hcause

theorem rootsAt_iff {rootPath : AbsolutePath} {texts : List Text} {roots : List Path}
    (hroots : ∀ root ∈ roots, root.isAbsolute = true) :
    RootsAt tree current rootPath.val texts roots ↔
      ∃ found : List AbsolutePath,
        texts.map (realRoot tree current rootPath.val) = (found.map Subtype.val).map .ok ∧
          roots = (if found.isEmpty then [rootPath] else found).map Subtype.val := by
  constructor
  · rintro (_ | ⟨hsome, hreal⟩)
    · exact ⟨[], rfl, rfl⟩
    · have hfound : (roots.pmap Subtype.mk hroots).map Subtype.val = roots := by
        simp [List.map_pmap]
      have hfull : (roots.pmap Subtype.mk hroots).isEmpty = false := by
        rw [List.isEmpty_eq_false_iff]
        intro hempty
        obtain rfl := List.pmap_eq_nil_iff.mp hempty
        exact hsome (List.map_eq_nil_iff.mp hreal)
      refine ⟨roots.pmap Subtype.mk hroots, by rw [hfound, hreal], ?_⟩
      rw [hfull, if_neg Bool.false_ne_true, hfound]
  · rintro ⟨found, hreal, rfl⟩
    cases found with
    | nil =>
        obtain rfl := List.map_eq_nil_iff.mp hreal
        exact .alone
    | cons root others =>
        refine .listed ?_ hreal
        rintro rfl
        cases hreal

theorem tableOf_eq_ok_iff {value : Value} {entries : Table} (h : value.isTable = true) :
    tableOf value = .ok entries ↔ value = .table entries := by
  cases value with
  | table held => simp [tableOf, pure, Except.pure]
  | _ => cases h

theorem follows_of_ofValues {texts : List Text}
    (hroots : (given .roots).getD (.list []) = .list (texts.map .text))
    (hbindings : ((given .bindings).getD (.table [])).isTable = true)
    (h : ofValues tree current given = .ok settings) : Follows tree current given settings := by
  obtain ⟨rootPath, hrootPath, hread⟩ := bind_eq_ok_iff.mp h
  obtain ⟨named, hnamed, hread⟩ := bind_eq_ok_iff.mp hread
  obtain ⟨found, hfound, hread⟩ := bind_eq_ok_iff.mp hread
  obtain ⟨extensions, hextensions, hread⟩ := bind_eq_ok_iff.mp hread
  obtain ⟨prefixes, hprefixes, hread⟩ := bind_eq_ok_iff.mp hread
  obtain ⟨excludes, hexcludes, hread⟩ := bind_eq_ok_iff.mp hread
  obtain ⟨bindings, hheld, hread⟩ := bind_eq_ok_iff.mp hread
  obtain rfl := Except.ok.inj hread
  have hitems : itemsOf (.list (texts.map .text)) = .ok named :=
    hroots ▸ sequenceOf_eq_itemsOf [] (given .roots) ▸ hnamed
  obtain rfl := Except.ok.inj hitems
  refine {
    rootPath := rootPathOf_eq_ok_iff.mp hrootPath
    roots := ⟨texts, hroots, ?_⟩
    extensions := sequenceOf_eq_ok_iff.mp hextensions
    prefixes := sequenceOf_eq_ok_iff.mp hprefixes
    marker := rfl
    excludes := sequenceOf_eq_ok_iff.mp hexcludes
    bindings := (tableOf_eq_ok_iff hbindings).mp hheld }
  refine (rootsAt_iff ?_).mpr ⟨found, mapM_rootOf_eq_ok_iff.mp hfound, rfl⟩
  simp +contextual

theorem ofValues_of_follows (h : Follows tree current given settings) :
    ofValues tree current given = .ok settings := by
  obtain ⟨texts, hroots, hrootsAt⟩ := h.roots
  obtain ⟨found, hfound, hheld⟩ := (@rootsAt_iff tree current
    ⟨settings.rootPath, settings.rootPath_isAbsolute⟩ _ _ settings.roots_isAbsolute).mp hrootsAt
  have hnamed : sequenceOf [] (given .roots) = .ok (texts.map .text) := by
    rw [sequenceOf_eq_itemsOf, List.map_nil, hroots]
    rfl
  have hbindings : ((given .bindings).getD (.table [])).isTable = true := by
    rw [h.bindings]
    rfl
  refine bind_eq_ok_iff.mpr ⟨_, rootPathOf_eq_ok_iff.mpr h.rootPath, ?_⟩
  refine bind_eq_ok_iff.mpr ⟨_, hnamed, ?_⟩
  refine bind_eq_ok_iff.mpr ⟨found, mapM_rootOf_eq_ok_iff.mpr hfound, ?_⟩
  refine bind_eq_ok_iff.mpr ⟨_, sequenceOf_eq_ok_iff.mpr h.extensions, ?_⟩
  refine bind_eq_ok_iff.mpr ⟨_, sequenceOf_eq_ok_iff.mpr h.prefixes, ?_⟩
  refine bind_eq_ok_iff.mpr ⟨_, sequenceOf_eq_ok_iff.mpr h.excludes, ?_⟩
  refine bind_eq_ok_iff.mpr ⟨_, (tableOf_eq_ok_iff hbindings).mpr h.bindings, ?_⟩
  cases settings with
  | mk roots rootPath extensions prefixes marker excludes bindings _ _ =>
      simp only [← h.marker, ← hheld]
      rfl

theorem buildFrom_eq_ok_iff :
    buildFrom tree current given = .ok settings ↔ Follows tree current given settings := by
  constructor
  · intro h
    have hchecked : Checked given := checked_of_forall_ne fun cause hcause => by
      cases hcause.symm.trans h
    rw [buildFrom_of_checked hchecked] at h
    obtain ⟨items, hitems, hread⟩ := bind_eq_ok_iff.mp h
    obtain ⟨texts, htexts, hvalues⟩ := bind_eq_ok_iff.mp hread
    obtain rfl := mapM_textOf_eq_ok_iff.mp htexts
    exact follows_of_ofValues (eq_list_of_itemsOf hchecked.roots hitems) hchecked.bindings hvalues
  · intro h
    obtain ⟨texts, hroots, -⟩ := h.roots
    have hchecked : Checked given := ⟨by rw [hroots]; rfl, by rw [h.bindings]; rfl⟩
    rw [buildFrom_of_checked hchecked, hroots]
    refine bind_eq_ok_iff.mpr ⟨_, rfl, bind_eq_ok_iff.mpr ⟨texts, ?_, ofValues_of_follows h⟩⟩
    exact mapM_textOf_eq_ok_iff.mpr rfl

theorem onlyBreaches_ofValues (tree : FileTree) (current : Path)
    (given : Setting → Option Value) : OnlyBreaches (ofValues tree current given) := by
  refine (onlyBreaches_rootPathOf tree current _).bind fun rootPath _ => ?_
  refine (onlyBreaches_sequenceOf [] (given .roots)).bind fun named _ => ?_
  refine (OnlyBreaches.mapM (onlyBreaches_rootOf tree current rootPath.val) named).bind
    fun roots _ => ?_
  refine (onlyBreaches_sequenceOf defaultExtensions (given .extensions)).bind
    fun extensions _ => ?_
  refine (onlyBreaches_sequenceOf defaultPrefixes (given .prefixes)).bind fun prefixes _ => ?_
  refine (onlyBreaches_sequenceOf [] (given .excludes)).bind fun excludes _ => ?_
  exact (onlyBreaches_tableOf _).bind fun bindings _ => onlyBreaches_ok _

/-! ## Settings that cannot be built -/

/-- What no check rejects, and yet no settings can be built from. -/
inductive Misfits (tree : FileTree) (current : Path) (given : Setting → Option Value) : Prop
  | root {items : List Value} {item : Value} (hroots : given .roots = some (.list items))
      (hitem : item ∈ items) (hkind : item.text? = none)
  | rootPath {value : Value} (hvalue : given .rootPath = some value)
      (hkind : ∀ path, ¬ RootPathGiven current (some value) path)
  | rootPathLost {path : Path} {fault : Fault}
      (hgiven : RootPathGiven current (given .rootPath) path)
      (hreal : tree.realPath current path = .error fault)
  | rootLost {path : Path} {rootPath : AbsolutePath} {items : List Value} {text : Text}
      {fault : Fault} (hgiven : RootPathGiven current (given .rootPath) path)
      (hrootPath : tree.realPath current path = .ok rootPath)
      (hroots : given .roots = some (.list items)) (htext : .text text ∈ items)
      (hreal : realRoot tree current rootPath.val text = .error fault)
  | sequence {setting : Setting} {value : Value}
      (hsetting : setting ∈ [Setting.extensions, .prefixes, .excludes])
      (hvalue : given setting = some value) (hkind : value.items? = none)

theorem RootPathGiven.unique {value : Option Value} {path other : Path}
    (h : RootPathGiven current value path) (hother : RootPathGiven current value other) :
    path = other := by
  cases h <;> cases hother <;> rfl

theorem RootsAt.exists_root {rootPath : Path} {texts : List Text} {roots : List Path}
    (h : RootsAt tree current rootPath texts roots) {text : Text} (htext : text ∈ texts) :
    ∃ root, realRoot tree current rootPath text = .ok root := by
  cases h with
  | alone => cases htext
  | listed hsome hreal =>
      have hmem := List.mem_map_of_mem (f := realRoot tree current rootPath) htext
      rw [hreal] at hmem
      obtain ⟨root, -, hroot⟩ := List.mem_map.mp hmem
      exact ⟨root, hroot.symm⟩

theorem Elements.items?_eq {default : List Text} {value : Value} {items : List Value}
    (h : Elements default (some value) items) : value.items? = some items := by
  cases h <;> rfl

theorem Misfits.not_follows (h : Misfits tree current given) :
    ¬ Follows tree current given settings := by
  intro hfollows
  obtain ⟨texts, hroots, hrootsAt⟩ := hfollows.roots
  obtain ⟨path, hpath, hreal⟩ := hfollows.rootPath
  cases h with
  | root hitems hitem hkind =>
      rw [hitems, Option.getD_some] at hroots
      rw [Value.list.inj hroots] at hitem
      obtain ⟨text, -, rfl⟩ := List.mem_map.mp hitem
      cases hkind
  | rootPath hvalue hkind =>
      rw [hvalue] at hpath
      exact hkind path hpath
  | rootPathLost hgiven hlost =>
      obtain rfl := hgiven.unique hpath
      cases hlost.symm.trans hreal
  | rootLost hgiven hrootPath hitems htext hlost =>
      obtain rfl := hgiven.unique hpath
      obtain rfl := Except.ok.inj (hrootPath.symm.trans hreal)
      rw [hitems, Option.getD_some] at hroots
      rw [Value.list.inj hroots] at htext
      have hmem := (List.mem_map_of_injective fun _ _ => Value.text.inj).mp htext
      obtain ⟨root, hroot⟩ := hrootsAt.exists_root hmem
      cases hlost.symm.trans hroot
  | @sequence setting value hsetting hvalue hkind =>
      have helements : ∃ default items, Elements default (given setting) items := by
        simp only [List.mem_cons, List.not_mem_nil, or_false] at hsetting
        rcases hsetting with rfl | rfl | rfl
        · exact ⟨_, _, hfollows.extensions⟩
        · exact ⟨_, _, hfollows.prefixes⟩
        · exact ⟨_, _, hfollows.excludes⟩
      obtain ⟨default, items, hitems⟩ := helements
      rw [hvalue] at hitems
      cases hkind.symm.trans hitems.items?_eq

theorem misfits_of_sequenceOf {setting : Setting} {default : List Text} {fault : Fault}
    (hsetting : setting ∈ [Setting.extensions, .prefixes, .excludes])
    (h : sequenceOf default (given setting) = .error fault) : Misfits tree current given := by
  cases hvalue : given setting with
  | none =>
      rw [hvalue] at h
      cases h
  | some value =>
      refine .sequence hsetting hvalue ?_
      cases hitems : value.items? with
      | none => rfl
      | some items => simp [hvalue, sequenceOf, itemsOf, hitems] at h

theorem misfits_of_rootPathOf {fault : Fault}
    (h : rootPathOf tree current ((given .rootPath).getD .null) = .error fault) :
    Misfits tree current given := by
  by_cases hgiven : ∃ path, RootPathGiven current (given .rootPath) path
  · obtain ⟨path, hpath⟩ := hgiven
    rw [rootPathOf_of_given hpath] at h
    exact .rootPathLost hpath h
  · cases hvalue : given .rootPath with
    | none => exact absurd ⟨current, hvalue ▸ .missing⟩ hgiven
    | some value =>
        exact .rootPath hvalue fun path hpath => hgiven ⟨path, hvalue ▸ hpath⟩

theorem eq_some_list_of_mem {value : Option Value} {items : List Value} {item : Value}
    (h : value.getD (.list []) = .list items) (hitem : item ∈ items) :
    value = some (.list items) := by
  cases value with
  | none =>
      obtain rfl := Value.list.inj h
      cases hitem
  | some value => exact congrArg some h

theorem text?_of_textOf {value : Value} {fault : Fault} (h : textOf value = .error fault) :
    value.text? = none := by
  cases value with
  | text text => cases h
  | _ => rfl

theorem misfits_of_rootOf {rootPath : AbsolutePath} {items : List Value} {item : Value}
    {fault : Fault}
    (hrootPath : rootPathOf tree current ((given .rootPath).getD .null) = .ok rootPath)
    (hroots : given .roots = some (.list items)) (hitem : item ∈ items)
    (h : rootOf tree current rootPath.val item = .error fault) : Misfits tree current given := by
  cases htext : textOf item with
  | error other =>
      exact .root hroots hitem (text?_of_textOf htext)
  | ok text =>
      obtain rfl := textOf_eq_ok_iff.mp htext
      obtain ⟨path, hpath, hreal⟩ := rootPathOf_eq_ok_iff.mp hrootPath
      have hlost : realRoot tree current rootPath.val text = .error fault :=
        congrArg (Except.map Subtype.val) h
      exact .rootLost hpath hreal hroots hitem hlost

theorem Checked.exists_items (h : Checked given) :
    ∃ items, (given .roots).getD (.list []) = .list items := by
  have hroots := h.roots
  cases hgiven : (given .roots).getD (.list []) with
  | list items => exact ⟨items, rfl⟩
  | _ => cases hgiven ▸ hroots

theorem Checked.exists_entries (h : Checked given) :
    ∃ entries, (given .bindings).getD (.table []) = .table entries := by
  have hbindings := h.bindings
  cases hgiven : (given .bindings).getD (.table []) with
  | table entries => exact ⟨entries, rfl⟩
  | _ => cases hgiven ▸ hbindings

theorem misfits_of_ofValues {items : List Value} {fault : Fault} (hchecked : Checked given)
    (hitems : (given .roots).getD (.list []) = .list items)
    (h : ofValues tree current given = .error fault) : Misfits tree current given := by
  have hnamed : sequenceOf [] (given .roots) = .ok items := by
    rw [sequenceOf_eq_itemsOf, List.map_nil, hitems]
    rfl
  obtain ⟨entries, hentries⟩ := hchecked.exists_entries
  -- The steps in their order; what the checks let pass cannot fail here.
  rcases bind_eq_error_iff.mp h with hrootPath | ⟨rootPath, hrootPath, hread⟩
  · exact misfits_of_rootPathOf hrootPath
  rcases bind_eq_error_iff.mp hread with hnone | ⟨named, hsome, hread⟩
  · cases hnamed.symm.trans hnone
  obtain rfl := Except.ok.inj (hnamed.symm.trans hsome)
  rcases bind_eq_error_iff.mp hread with hroots | ⟨roots, -, hread⟩
  · obtain ⟨item, hitem, hroot⟩ := exists_of_mapM_eq_error hroots
    exact misfits_of_rootOf hrootPath (eq_some_list_of_mem hitems hitem) hitem hroot
  rcases bind_eq_error_iff.mp hread with hextensions | ⟨extensions, -, hread⟩
  · exact misfits_of_sequenceOf (by simp) hextensions
  rcases bind_eq_error_iff.mp hread with hprefixes | ⟨prefixes, -, hread⟩
  · exact misfits_of_sequenceOf (by simp) hprefixes
  rcases bind_eq_error_iff.mp hread with hexcludes | ⟨excludes, -, hread⟩
  · exact misfits_of_sequenceOf (by simp) hexcludes
  rcases bind_eq_error_iff.mp hread with hbindings | ⟨bindings, -, hread⟩
  · rw [hentries] at hbindings
    cases hbindings
  · cases hread

theorem misfits_of_buildFrom {fault : Fault} (hchecked : Checked given)
    (h : buildFrom tree current given = .error fault) : Misfits tree current given := by
  obtain ⟨items, hitems⟩ := hchecked.exists_items
  rw [buildFrom_of_checked hchecked, hitems] at h
  rcases bind_eq_error_iff.mp h with hlist | ⟨listed, hlisted, hread⟩
  · cases hlist
  obtain rfl := Except.ok.inj hlisted
  rcases bind_eq_error_iff.mp hread with htexts | ⟨texts, -, hvalues⟩
  · obtain ⟨item, hitem, htext⟩ := exists_of_mapM_eq_error htexts
    exact .root (eq_some_list_of_mem hitems hitem) hitem (text?_of_textOf htext)
  · exact misfits_of_ofValues hchecked hitems hvalues

theorem onlyBreaches_buildFrom (h : Checked given) :
    OnlyBreaches (buildFrom tree current given) := by
  rw [buildFrom_of_checked h]
  refine (onlyBreaches_itemsOf _).bind fun items _ =>
    (OnlyBreaches.mapM onlyBreaches_textOf items).bind fun texts _ => ?_
  exact onlyBreaches_ofValues tree current given

/-- Building stumbles exactly over values that misfit behind the checks. -/
theorem exists_breach_buildFrom_iff :
    (∃ cause, buildFrom tree current given = .error (.breach cause)) ↔
      Checked given ∧ Misfits tree current given := by
  constructor
  · rintro ⟨cause, hcause⟩
    have hchecked : Checked given := checked_of_forall_ne fun other hother => by
      cases hother.symm.trans hcause
    exact ⟨hchecked, misfits_of_buildFrom hchecked hcause⟩
  · rintro ⟨hchecked, hmisfits⟩
    cases hbuilt : buildFrom tree current given with
    | ok settings => exact absurd (buildFrom_eq_ok_iff.mp hbuilt) hmisfits.not_follows
    | error fault =>
        obtain ⟨cause, rfl⟩ := onlyBreaches_buildFrom hchecked fault hbuilt
        exact ⟨cause, rfl⟩

end Settings

end Stylesheets
