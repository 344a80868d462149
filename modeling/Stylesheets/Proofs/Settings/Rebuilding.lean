import Stylesheets.Proofs.FileTree.Resolution
import Stylesheets.Proofs.Settings.Building
import Stylesheets.Proofs.Settings.Roots

/-!
# Settings built again

In a tree without link loops every path of the settings is a real one, and a
real path is its own real path.  So settings that are built again from their
own values come out as they were, whatever the current directory is then.
-/

namespace Stylesheets

namespace FileTree

/-- The real path of a path stands where its segments lead. -/
def IsRealPathOf (tree : FileTree) (current path real : Path) : Prop :=
  real.anchor = .root ∧ tree.Leads (startOf current path) path.segments real.segments

def Resolution.isComplete : Resolution → Bool
  | complete _ _ => true
  | looping _ => false

theorem exists_leads_of_isComplete {tree : FileTree} {address : Address} {segments : List Text}
    (h : (tree.resolveLinks (tree.entries.length + 1) [] address segments).isComplete = true) :
    ∃ found, tree.Leads address segments found := by
  cases hresolved : tree.resolveLinks (tree.entries.length + 1) [] address segments with
  | complete found learned => exact ⟨found, resolveLinks_eq_complete_iff.mp ⟨learned, hresolved⟩⟩
  | looping segments =>
      rw [hresolved] at h
      cases h

theorem loopFree_of_entries {tree : FileTree}
    (h : (tree.entries.all fun (address, entry) =>
      match entry with
      | .link target => (tree.resolveLinks (tree.entries.length + 1) []
          (linkStart address.dropLast target) (target.splitOn '/')).isComplete
      | _ => true) = true) : tree.LoopFree := by
  intro link target hlink
  have hroot : link ≠ [] := by
    rintro rfl
    cases hlink
  obtain ⟨found, depth, hleads⟩ := exists_leads_of_isComplete
    (List.all_eq_true.mp h _ (mem_entries hlink hroot))
  exact ⟨found, depth, target, hlink, hleads⟩

theorem isNullFree_of_entries {tree : FileTree}
    (h : (tree.entries.all fun (address, entry) =>
      address.all (fun name => !name.elem '\x00') &&
        match entry with
        | .link target => !target.elem '\x00'
        | _ => true) = true) : tree.IsNullFree := by
  rintro ⟨address, entry⟩ hitem
  have hboth := Bool.and_eq_true_iff.mp (List.all_eq_true.mp h _ hitem)
  refine ⟨fun name hname => by simpa using List.all_eq_true.mp hboth.1 name hname, ?_⟩
  rintro target rfl
  simpa using hboth.2

end FileTree

namespace Settings

open Fault

variable {tree : FileTree} {current : Path} {given : Setting → Option Value}
  {settings : Settings} {table : Table}

theorem exists_texts_of_mapM_rootOf {rootPath : Path} {values : List Value}
    {found : List AbsolutePath} (h : values.mapM (rootOf tree current rootPath) = .ok found) :
    ∃ texts : List Text, values = texts.map .text := by
  cases htexts : values.mapM textOf with
  | ok texts => exact ⟨texts, mapM_textOf_eq_ok_iff.mp htexts⟩
  | error fault =>
      obtain ⟨value, hvalue, htext⟩ := exists_of_mapM_eq_error htexts
      have hroot : rootOf tree current rootPath value = .error fault := by
        simp [rootOf, htext, bind, Except.bind]
      have hmem := List.mem_map_of_mem (f := rootOf tree current rootPath) hvalue
      rw [mapM_eq_ok_iff.mp h, hroot] at hmem
      obtain ⟨root, -, hok⟩ := List.mem_map.mp hmem
      cases hok

theorem paths_of_ofValues (h : ofValues tree current given = .ok settings) :
    (∃ path, RootPathGiven current (given .rootPath) path ∧
        tree.realPath current path = .ok ⟨settings.rootPath, settings.rootPath_isAbsolute⟩) ∧
      ∃ texts : List Text, Elements [] (given .roots) (texts.map .text) ∧
        RootsAt tree current settings.rootPath texts settings.roots := by
  obtain ⟨rootPath, hrootPath, hread⟩ := bind_eq_ok_iff.mp h
  obtain ⟨named, hnamed, hread⟩ := bind_eq_ok_iff.mp hread
  obtain ⟨found, hfound, hread⟩ := bind_eq_ok_iff.mp hread
  obtain ⟨extensions, -, hread⟩ := bind_eq_ok_iff.mp hread
  obtain ⟨prefixes, -, hread⟩ := bind_eq_ok_iff.mp hread
  obtain ⟨excludes, -, hread⟩ := bind_eq_ok_iff.mp hread
  obtain ⟨bindings, -, hread⟩ := bind_eq_ok_iff.mp hread
  obtain rfl := Except.ok.inj hread
  obtain ⟨texts, rfl⟩ := exists_texts_of_mapM_rootOf hfound
  refine ⟨rootPathOf_eq_ok_iff.mp hrootPath, texts, sequenceOf_eq_ok_iff.mp hnamed, ?_⟩
  exact (rootsAt_iff (by simp +contextual)).mpr ⟨found, mapM_rootOf_eq_ok_iff.mp hfound, rfl⟩

theorem RootsAt.eq_rootPath {rootPath : Path} {roots : List Path}
    (h : RootsAt tree current rootPath [] roots) : roots = [rootPath] := by
  cases h with
  | alone => rfl
  | listed hsome hreal => exact absurd rfl hsome

theorem RootsAt.eq_or_exists_text {rootPath root : Path} {texts : List Text} {roots : List Path}
    (h : RootsAt tree current rootPath texts roots) (hroot : root ∈ roots) :
    root = rootPath ∨ ∃ text, realRoot tree current rootPath text = .ok root := by
  cases h with
  | alone => exact .inl (List.mem_singleton.mp hroot)
  | listed hsome hreal =>
      have hmem := List.mem_map_of_mem (f := Except.ok (ε := Fault)) hroot
      rw [← hreal] at hmem
      obtain ⟨text, -, htext⟩ := List.mem_map.mp hmem
      exact .inr ⟨text, htext⟩

theorem RootsAt.ne_nil {rootPath : Path} {texts : List Text} {roots : List Path}
    (h : RootsAt tree current rootPath texts roots) : roots ≠ [] := by
  cases h with
  | alone => exact List.cons_ne_nil _ _
  | listed hsome hreal =>
      rintro rfl
      exact hsome (List.map_eq_nil_iff.mp hreal)

theorem RootsAt.forall₂ {rootPath : Path} {texts : List Text} {roots : List Path}
    (h : RootsAt tree current rootPath texts roots) (hsome : texts ≠ []) :
    List.Forall₂ (fun text root => realRoot tree current rootPath text = .ok root) texts roots := by
  cases h with
  | alone => exact absurd rfl hsome
  | listed _ hreal =>
      rwa [← List.forall₂_eq_eq_eq, List.forall₂_map_left_iff, List.forall₂_map_right_iff] at hreal

/-! ## Settings of their own values -/

theorem get?_toTable (settings : Settings) (setting : Setting) :
    settings.toTable.get? setting.name = some (settings.value setting) := by
  cases setting <;> rfl

theorem ofTable_toTable_eq (tree : FileTree) (current : Path) (settings : Settings) :
    ofTable tree current settings.toTable =
      ofValues tree current fun setting => some (settings.value setting) := by
  have hnames : (settings.toTable.all fun entry => (Setting.ofName? entry.1).isSome) = true := rfl
  rw [ofTable, if_pos hnames]
  exact congrArg _ (funext (get?_toTable settings))

theorem follows_value
    (hrootPath : tree.realPath current (.ofText settings.rootPath.text) =
      .ok ⟨settings.rootPath, settings.rootPath_isAbsolute⟩)
    (hsome : settings.roots ≠ [])
    (hroots : ∀ root ∈ settings.roots,
      realRoot tree current settings.rootPath root.text = .ok root) :
    Follows tree current (fun setting => some (settings.value setting)) settings where
  rootPath := ⟨_, .text _, hrootPath⟩
  roots := by
    refine ⟨settings.roots.map Path.text, by simp [value], .listed (by simpa using hsome) ?_⟩
    rw [List.map_map]
    exact List.map_congr_left hroots
  extensions := .list _
  prefixes := .list _
  marker := rfl
  excludes := .list _
  bindings := rfl

theorem isRealPathOf_of_realPath {path : Path} {real : AbsolutePath} (hfree : tree.LoopFree)
    (hcurrent : tree.IsWorkingDirectory current) (hproper : path.IsProper)
    (h : tree.realPath current path = .ok real) : tree.IsRealPathOf current path real.val :=
  ((hfree.realPath_eq_ok_iff hcurrent hproper).mp h).2

theorem RootPathGiven.isProper {value : Option Value} {path : Path} (hcurrent : current.IsNormal)
    (h : RootPathGiven current value path) : path.IsProper := by
  cases h with
  | missing => exact hcurrent.isProper
  | null => exact hcurrent.isProper
  | text text => exact Path.isProper_ofText text

theorem realRoot_eq_ok_iff {rootPath root : Path} {text : Text} :
    realRoot tree current rootPath text = .ok root ↔
      ∃ real, tree.realPath current (rootPath.append (.ofText text)) = .ok real ∧
        real.val = root := by
  rw [realRoot]
  cases tree.realPath current (rootPath.append (.ofText text)) <;> simp [Except.map]

theorem realRoot_text {real : AbsolutePath} (hproper : real.val.IsProper)
    (h : tree.realPath current (.ofText real.val.text) = .ok real) (rootPath : Path) :
    realRoot tree current rootPath real.val.text = .ok real.val := by
  have habsolute : (Path.ofText real.val.text).isAbsolute = true := by
    rw [Path.ofText_text hproper]
    exact real.property
  refine realRoot_eq_ok_iff.mpr ⟨real, ?_, rfl⟩
  rwa [Path.append_of_isAbsolute habsolute]

/-- The root path and the roots stand at real paths, the roots in their order and below the root
path, and settings that are built again from their own values come out the same. -/
theorem ofTable_rebuilds (hfree : tree.LoopFree) (hnull : tree.IsNullFree)
    (hcurrent : tree.IsWorkingDirectory current) (h : ofTable tree current table = .ok settings) :
    (∃ path, RootPathGiven current (table.get? Setting.rootPath.name) path ∧
        tree.IsRealPathOf current path settings.rootPath) ∧
      (∃ texts : List Text, Elements [] (table.get? Setting.roots.name) (texts.map .text) ∧
        (texts = [] → settings.roots = [settings.rootPath]) ∧
        (texts ≠ [] → List.Forall₂ (fun text root =>
            tree.IsRealPathOf current (settings.rootPath.append (.ofText text)) root)
          texts settings.roots)) ∧
      settings.roots ≠ [] ∧
      (∀ root ∈ settings.roots,
        root.isAbsolute = true ∧ ∀ segment ∈ root.segments, Path.isName segment = true) ∧
      ∀ other, ofTable tree other settings.toTable = .ok settings := by
  have hvalues : ofValues tree current (fun setting => table.get? setting.name) = .ok settings := by
    rw [ofTable] at h
    split at h
    · exact h
    · cases h
  obtain ⟨hrootPath, hroots⟩ := isNormal_of_ofValues hcurrent.isNormal hvalues
  obtain ⟨⟨path, hgiven, hreal⟩, texts, htexts, hrootsAt⟩ := paths_of_ofValues hvalues
  have hproper := hgiven.isProper hcurrent.isNormal
  refine ⟨⟨path, hgiven, isRealPathOf_of_realPath hfree hcurrent hproper hreal⟩,
    ⟨texts, htexts, ?alone, ?listed⟩, hrootsAt.ne_nil,
    fun root hroot => ⟨(hroots root hroot).isAbsolute, fun _ => (hroots root hroot).isName⟩,
    fun other => ?again⟩
  case alone =>
    rintro rfl
    exact hrootsAt.eq_rootPath
  case listed =>
    intro hsome
    refine (hrootsAt.forall₂ hsome).imp fun text root hroot => ?_
    obtain ⟨real, hfound, rfl⟩ := realRoot_eq_ok_iff.mp hroot
    exact isRealPathOf_of_realPath hfree hcurrent
      (hrootPath.isProper.append (Path.isProper_ofText text)) hfound
  case again =>
    have hrootPathAgain := hfree.realPath_text hnull hcurrent hproper hreal other
    rw [ofTable_toTable_eq]
    refine ofValues_of_follows (follows_value hrootPathAgain hrootsAt.ne_nil fun root hroot => ?_)
    rcases hrootsAt.eq_or_exists_text hroot with rfl | ⟨text, htext⟩
    · exact realRoot_text hrootPath.isProper hrootPathAgain _
    · obtain ⟨real, hfound, rfl⟩ := realRoot_eq_ok_iff.mp htext
      have hbelow := hrootPath.isProper.append (Path.isProper_ofText text)
      have hrootAgain := hfree.realPath_text hnull hcurrent hbelow hfound other
      exact realRoot_text (hroots real.val hroot).isProper hrootAgain _

def linkedTree : FileTree :=
  (((FileTree.empty.put ⟨.root, []⟩ (.ofText "/app".toList) .directory).put ⟨.root, []⟩
    (.ofText "/shared/css".toList) .directory).put ⟨.root, []⟩
    (.ofText "/app/theme".toList) (.link "/shared".toList)).put ⟨.root, []⟩
    (.ofText "/app/css".toList) (.link "theme/css".toList)

def linkedTable : Table :=
  [(Setting.rootPath.name, .text "theme/../app".toList),
    (Setting.roots.name, .list [.text "css".toList, .text "theme/../new".toList])]

def linkedSettings : Settings where
  roots := [.ofText "/shared/css".toList, .ofText "/new".toList]
  rootPath := .ofText "/app".toList
  extensions := defaultExtensions.map .text
  prefixes := defaultPrefixes.map .text
  marker := .text defaultMarker
  excludes := []
  bindings := []
  rootPath_isAbsolute := by decide +kernel
  roots_isAbsolute := by decide +kernel

/-- The root path goes up behind a link, one root lies behind two links, the other is missing. -/
theorem ofTable_rebuildsLinkedRoots :
    linkedTree.LoopFree ∧ linkedTree.IsNullFree ∧
      linkedTree.IsWorkingDirectory (.ofText "/app".toList) ∧
      ofTable linkedTree (.ofText "/app".toList) linkedTable = .ok linkedSettings ∧
      ofTable linkedTree ⟨.root, []⟩ linkedSettings.toTable = .ok linkedSettings := by
  have hfree : linkedTree.LoopFree := FileTree.loopFree_of_entries (by cbv)
  have hnull : linkedTree.IsNullFree := FileTree.isNullFree_of_entries (by cbv)
  have hcurrent : linkedTree.IsWorkingDirectory (.ofText "/app".toList) := ⟨by cbv, by cbv⟩
  have hrootPath : linkedTree.realPath (.ofText "/app".toList) (.ofText "theme/../app".toList) =
      .ok ⟨.ofText "/app".toList, linkedSettings.rootPath_isAbsolute⟩ := by
    cbv
  have hcss : realRoot linkedTree (.ofText "/app".toList) (.ofText "/app".toList) "css".toList =
      .ok (.ofText "/shared/css".toList) := by
    cbv
  have hnew : realRoot linkedTree (.ofText "/app".toList) (.ofText "/app".toList)
      "theme/../new".toList = .ok (.ofText "/new".toList) := by
    cbv
  have hbuilt : ofTable linkedTree (.ofText "/app".toList) linkedTable = .ok linkedSettings := by
    have hnames : (linkedTable.all fun entry => (Setting.ofName? entry.1).isSome) = true := rfl
    rw [ofTable, if_pos hnames]
    refine ofValues_of_follows {
      rootPath := ⟨_, .text _, hrootPath⟩
      roots := ⟨["css".toList, "theme/../new".toList], rfl, .listed (List.cons_ne_nil _ _) ?_⟩
      extensions := .missing
      prefixes := .missing
      marker := rfl
      excludes := .missing
      bindings := rfl }
    exact congrArg₂ List.cons hcss (congrArg₂ List.cons hnew rfl)
  have hagain := (ofTable_rebuilds hfree hnull hcurrent hbuilt).2.2.2.2 ⟨.root, []⟩
  exact ⟨hfree, hnull, hcurrent, hbuilt, hagain⟩

end Settings

end Stylesheets
