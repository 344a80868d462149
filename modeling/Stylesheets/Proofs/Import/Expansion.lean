import Stylesheets.Import.Expansion
import Stylesheets.Proofs.FileTree.Walk
import Stylesheets.Proofs.Import.Search
import Stylesheets.Proofs.Path.Normal
import Stylesheets.Proofs.Text.Order

/-!
# What a glob import names

A glob import names the files that may be imported in a directory, or below it
where real directories lead to them.  What is listed there is tested in the
order of the written paths, which does not depend on the order of the listing.
-/

namespace Stylesheets

namespace GlobKind

def pattern : GlobKind → Text
  | singleLevel => Glob.star
  | recursive => Path.joinSegments [Glob.doubleStar, Glob.star]

def IsSpelled (kind : GlobKind) (residual spelling : Text) : Prop :=
  (residual = [] ∧ spelling = kind.pattern) ∨ spelling = residual ++ '/' :: kind.pattern

def reaches : GlobKind → List Text → Bool
  | singleLevel, way => way.length == 1
  | recursive, _ => true

end GlobKind

namespace Glob

theorem kindOf_pattern (kind : GlobKind) : kindOf kind.pattern = .ok kind := by
  cases kind <;> rfl

theorem joinSegments_splitOn (text : Text) :
    Path.joinSegments (text.splitOn '/') = text :=
  List.intercalate_splitOn '/'

theorem split?_append_star {residual : Text} (h : '*' ∉ residual) :
    split? (residual ++ '/' :: star) = some (residual, star) := by
  have hsegments : (residual ++ '/' :: star).splitOn '/' = residual.splitOn '/' ++ [star] :=
    List.splitOn_append_cons_self residual star
  cases hbefore : (residual.splitOn '/').reverse with
  | nil => exact absurd (List.reverse_eq_nil_iff.mp hbefore) (List.splitOn_ne_nil _ _)
  | cons previous earlier =>
      -- The segment before the star is no pair of stars, as it holds none.
      have hprevious : previous ≠ doubleStar := by
        rintro rfl
        have hmem : doubleStar ∈ residual.splitOn '/' := by
          rw [← List.mem_reverse, hbefore]
          simp
        rw [← joinSegments_splitOn residual] at h
        exact h (Path.mem_joinSegments hmem (by simp [doubleStar]))
      have hwhole : (previous :: earlier).reverse = residual.splitOn '/' := by
        rw [← hbefore, List.reverse_reverse]
      unfold split?
      rw [hsegments, List.reverse_append, hbefore]
      simp only [List.reverse_singleton, List.singleton_append]
      rw [if_neg hprevious, hwhole, joinSegments_splitOn]
      rfl

theorem split?_append_doubleStar (residual : Text) :
    split? (residual ++ '/' :: GlobKind.recursive.pattern) =
      some (residual, GlobKind.recursive.pattern) := by
  have hsegments : (residual ++ '/' :: GlobKind.recursive.pattern).splitOn '/' =
      residual.splitOn '/' ++ [doubleStar, star] :=
    List.splitOn_append_cons_self residual (GlobKind.pattern .recursive)
  unfold split?
  rw [hsegments, List.reverse_append]
  simp only [List.reverse_cons, List.reverse_nil, List.nil_append, List.cons_append]
  rw [if_pos trivial, List.reverse_reverse, joinSegments_splitOn]
  rfl

theorem parse_eq_ok {kind : GlobKind} {residual spelling : Text} (h : '*' ∉ residual)
    (hspelled : kind.IsSpelled residual spelling) :
    parse spelling = .ok (residual, kind) := by
  have hsplit : split? spelling = some (residual, kind.pattern) := by
    rcases hspelled with ⟨rfl, rfl⟩ | rfl
    · cases kind <;> rfl
    · cases kind with
      | singleLevel => exact split?_append_star h
      | recursive => exact split?_append_doubleStar residual
  simp [parse, hsplit, kindOf_pattern, h]

def baseOf (file : Path) (residual : Text) : Path :=
  (Path.ofText (Spelling.join file.parent.text [residual])).normalize

theorem isProper_baseOf (file : Path) (residual : Text) : (baseOf file residual).IsProper :=
  (Path.isProper_ofText _).normalize

theorem isAbsolute_spelled {file : Path} (h : file.isAbsolute = true) (residual : Text) :
    (Path.ofText (Spelling.join file.parent.text [residual])).isAbsolute = true := by
  rw [Path.isAbsolute_ofText]
  exact Path.isAbsolute_join (@Path.isAbsolute_text file.parent h) _

/-! ## What is listed -/

theorem ways_eq_filter (tree : FileTree) (address : Address) (kind : GlobKind) :
    ways tree address kind = (tree.descendants address).filter kind.reaches := by
  cases kind with
  | singleLevel => exact tree.map_children_eq address
  | recursive => exact (List.filter_eq_self.mpr fun _ _ => rfl).symm

/-- An entry in a directory or, if the kind reaches so far, below it. -/
def Lists (tree : FileTree) (current base : Path) (kind : GlobKind) (path : Path) : Prop :=
  ∃ names, names ≠ [] ∧ kind.reaches names = true ∧ path = base.descend names ∧
    ∃ address, tree.locate true current base = .ok address ∧
      tree.isDirectory address = true ∧ (tree.get? (address ++ names)).isSome = true

def IsTooLong (tree : FileTree) (current path : Path) : Prop :=
  tree.find? current path = .error .nameTooLong

theorem isDirectoryAt_eq_ok {tree : FileTree} {current base : Path}
    (h : ¬ IsTooLong tree current base) :
    tree.isDirectoryAt current base =
      .ok (match tree.locate true current base with
        | .ok address => tree.isDirectory address
        | .error _ => false) := by
  unfold IsTooLong FileTree.find? at h
  unfold FileTree.isDirectoryAt FileTree.leadsTo FileTree.find?
  cases hlocate : tree.locate true current base with
  | error obstacle =>
      rw [hlocate] at h
      cases obstacle <;> simp_all
  | ok address =>
      have hdirectory : tree.isDirectory address =
          (tree.get? address).any Entry.isDirectory := rfl
      cases hentry : tree.get? address with
      | none => simp [hdirectory, hentry]
      | some entry => cases entry <;> simp [hdirectory, hentry, Entry.isDirectory]

def listed (tree : FileTree) (current base : Path) (kind : GlobKind) : List Path :=
  match tree.locate true current base with
  | .ok address =>
      if tree.isDirectory address then (ways tree address kind).map base.descend else []
  | .error _ => []

theorem entries_eq_error {tree : FileTree} {current base : Path} {kind : GlobKind}
    (h : IsTooLong tree current base) :
    entries tree current base kind = .error (.breach .system) := by
  rw [IsTooLong] at h
  simp [entries, FileTree.isDirectoryAt, FileTree.leadsTo, h, bind, Except.bind]

theorem entries_eq_ok {tree : FileTree} {current base : Path} {kind : GlobKind}
    (h : ¬ IsTooLong tree current base) :
    entries tree current base kind = .ok (listed tree current base kind) := by
  simp only [entries, isDirectoryAt_eq_ok h, listed, bind, Except.bind, pure, Except.pure]
  cases tree.locate true current base with
  | error obstacle => rfl
  | ok address =>
      cases hdirectory : tree.isDirectory address with
      | false => simp [hdirectory]
      | true =>
          simp only [hdirectory]
          rfl

theorem mem_listed_iff (tree : FileTree) (current base : Path) (kind : GlobKind) (path : Path) :
    path ∈ listed tree current base kind ↔ Lists tree current base kind path := by
  unfold listed
  constructor
  · intro h
    cases hlocate : tree.locate true current base with
    | error obstacle => simp [hlocate] at h
    | ok address =>
        cases hdirectory : tree.isDirectory address with
        | false => simp [hlocate, hdirectory] at h
        | true =>
            simp only [hlocate, hdirectory, if_true, ways_eq_filter, List.mem_map] at h
            obtain ⟨names, hnames, rfl⟩ := h
            obtain ⟨hmem, hreaches⟩ := List.mem_filter.mp hnames
            obtain ⟨hempty, hsome⟩ := (tree.mem_descendants_iff address names).mp hmem
            exact ⟨names, hempty, hreaches, rfl, address, hlocate, hdirectory, hsome⟩
  · rintro ⟨names, hempty, hreaches, rfl, address, hlocate, hdirectory, hsome⟩
    simp only [hlocate, hdirectory, if_true, ways_eq_filter]
    exact List.mem_map_of_mem (List.mem_filter.mpr
      ⟨(tree.mem_descendants_iff address names).mpr ⟨hempty, hsome⟩, hreaches⟩)

theorem nodup_listed (tree : FileTree) (current base : Path) (kind : GlobKind) :
    (listed tree current base kind).Nodup := by
  unfold listed
  split
  · split
    · rw [ways_eq_filter]
      exact ((tree.nodup_descendants _).filter _).map fun _ _ => Path.descend_injective
    · exact List.nodup_nil
  · exact List.nodup_nil

theorem isProper_of_lists {tree : FileTree} {current base path : Path} {kind : GlobKind}
    (hbase : base.IsProper) (h : Lists tree current base kind path) : path.IsProper := by
  obtain ⟨names, -, -, rfl, address, -, -, hsome⟩ := h
  refine hbase.descend fun name hname => ?_
  exact Listing.isName_of_isSome tree.wellFormed hsome name (List.mem_append_right _ hname)

theorem pairwise_text_listed (tree : FileTree) (current : Path) {base : Path}
    (hbase : base.IsProper) (kind : GlobKind) :
    (listed tree current base kind).Pairwise fun first second => first.text ≠ second.text := by
  refine List.Pairwise.imp_of_mem ?_ (nodup_listed tree current base kind)
  intro first second hfirst hsecond hne htext
  rw [mem_listed_iff] at hfirst hsecond
  exact hne (Path.text_injective (isProper_of_lists hbase hfirst)
    (isProper_of_lists hbase hsecond) htext)

theorem listed_perm {tree other : FileTree} (h : other.entries.Perm tree.entries)
    (current base : Path) (kind : GlobKind) :
    (listed other current base kind).Perm (listed tree current base kind) := by
  have hget := FileTree.get?_eq_of_perm h
  unfold listed
  rw [FileTree.locate_congr hget, FileTree.isDirectory_congr hget]
  split
  · split
    · rw [ways_eq_filter, ways_eq_filter]
      exact ((FileTree.descendants_perm h).filter _).map _
    · exact List.Perm.refl _
  · exact List.Perm.refl _

def keeps (isRequirable : Path → Except Fault Bool) (leftOut : List Path) (path : Path) : Bool :=
  !leftOut.elem path &&
    match isRequirable path with
    | .ok answer => answer
    | .error _ => false

theorem importable_eq_filter (isRequirable : Path → Except Fault Bool)
    (leftOut paths : List Path) :
    (∃ path ∈ paths, path ∉ leftOut ∧ ∃ fault, isRequirable path = .error fault ∧
      importable isRequirable leftOut paths = .error fault) ∨
    (∀ path ∈ paths, path ∉ leftOut → ∃ answer, isRequirable path = .ok answer) ∧
      importable isRequirable leftOut paths = .ok (paths.filter (keeps isRequirable leftOut)) := by
  induction paths with
  | nil => exact .inr ⟨by simp, rfl⟩
  | cons path rest ih =>
      by_cases hleft : path ∈ leftOut
      · have hskip : importable isRequirable leftOut (path :: rest) =
            importable isRequirable leftOut rest := by
          simp [importable, hleft]
        have hdrop : keeps isRequirable leftOut path = false := by simp [keeps, hleft]
        rw [hskip, List.filter_cons_of_neg (by simp [hdrop])]
        rcases ih with ⟨other, hother, hfault⟩ | ⟨hall, hresult⟩
        · exact .inl ⟨other, List.mem_cons_of_mem _ hother, hfault⟩
        · refine .inr ⟨?_, hresult⟩
          intro other hother hkept
          rcases List.mem_cons.mp hother with rfl | hrest
          · exact absurd hleft hkept
          · exact hall other hrest hkept
      · cases htest : isRequirable path with
        | error fault =>
            refine .inl ⟨path, by simp, hleft, fault, htest, ?_⟩
            simp [importable, hleft, htest, bind, Except.bind]
        | ok answer =>
            rcases ih with ⟨other, hother, hkept, fault, hfault, hresult⟩ | ⟨hall, hresult⟩
            · refine .inl ⟨other, List.mem_cons_of_mem _ hother, hkept, fault, hfault, ?_⟩
              cases answer <;> simp [importable, hleft, htest, hresult, bind, Except.bind]
            · refine .inr ⟨?_, ?_⟩
              · intro other hother hkept
                rcases List.mem_cons.mp hother with rfl | hrest
                · exact ⟨answer, htest⟩
                · exact hall other hrest hkept
              · cases answer <;>
                  simp [importable, keeps, hleft, htest, hresult, bind, Except.bind, pure,
                    Except.pure]

end Glob

namespace Importer

variable {importer : Importer} {spelling parent residual : Text} {kind : GlobKind}
  {file base : Path}

/-! ## The importing file -/

theorem isAbsolute_of_find {other : Option Text} {found : Path}
    (h : importer.find spelling other = .ok (some found)) : found.isAbsolute = true := by
  obtain ⟨resolver, hresolver, hfind⟩ := Fault.bind_eq_ok_iff.mp h
  obtain ⟨prefixes, -, hwith⟩ := Fault.bind_eq_ok_iff.mp hresolver
  obtain rfl := Except.ok.inj hwith
  obtain ⟨result, -, hfound⟩ := Fault.map_eq_ok_iff.mp hfind
  obtain ⟨path, -, rfl⟩ := Option.map_eq_some_iff.mp hfound
  exact Path.isAbsolute_append importer.catalog.settings.rootPath_isAbsolute path

theorem isAbsolute_importingFile (h : importer.importingFile parent = .ok file) :
    file.isAbsolute = true := by
  unfold importingFile at h
  split at h
  · next habsolute =>
      obtain rfl := Except.ok.inj h
      rw [Path.isAbsolute_normalize, Path.isAbsolute_ofText, habsolute]
  · obtain ⟨result, hfind, hresult⟩ := Fault.bind_eq_ok_iff.mp h
    cases result with
    | none => cases hresult
    | some found =>
        obtain rfl := Except.ok.inj hresult
        rw [Path.isAbsolute_normalize, isAbsolute_of_find hfind]

/-- The normal path of an importing file that is absolute, or that a search finds. -/
def IsImportingFile (importer : Importer) (parent : Text) (file : Path) : Prop :=
  (Spelling.isAbsolute parent = true ∧ file = (Path.ofText parent).normalize) ∨
  (Spelling.isAbsolute parent = false ∧
    ∃ found, importer.find parent none = .ok (some found) ∧ file = found.normalize)

theorem importingFile_eq_ok (h : importer.IsImportingFile parent file) :
    importer.importingFile parent = .ok file := by
  unfold importingFile
  rcases h with ⟨habsolute, rfl⟩ | ⟨hrelative, found, hfind, rfl⟩
  · rw [if_pos habsolute]
    rfl
  · rw [if_neg (by simp [hrelative]), hfind]
    rfl

theorem globSpec_eq_ok (hstar : '*' ∉ residual) (hspelled : kind.IsSpelled residual spelling)
    (hfile : importer.IsImportingFile parent file) :
    importer.globSpec spelling parent = .ok ⟨Glob.baseOf file residual, kind, file⟩ := by
  have himporting := importingFile_eq_ok hfile
  have habsolute := Glob.isAbsolute_spelled (isAbsolute_importingFile himporting) residual
  simp only [globSpec, Glob.parse_eq_ok hstar hspelled, himporting, bind, Except.bind, pure,
    Except.pure, Path.append_of_isAbsolute habsolute]
  rfl

theorem isNormal_of_globSpec {spec : GlobSpec}
    (h : importer.globSpec spelling parent = .ok spec) : spec.base.IsNormal := by
  obtain ⟨⟨residual, kind⟩, -, hparsed⟩ := Fault.bind_eq_ok_iff.mp h
  obtain ⟨file, himporting, hspec⟩ := Fault.bind_eq_ok_iff.mp hparsed
  have habsolute := Glob.isAbsolute_spelled (isAbsolute_importingFile himporting) residual
  rw [← Except.ok.inj hspec]
  exact Path.isNormal_normalize
    (Path.isAbsolute_append importer.catalog.settings.rootPath_isAbsolute _)
    (by rw [Path.append_of_isAbsolute habsolute]; exact Path.isProper_ofText _)

theorem expand_outcome {spec : GlobSpec} (h : importer.globSpec spelling parent = .ok spec) :
    (importer.expand spelling parent).outcome =
      importer.globbed spec.base spec.kind (spec.parent :: importer.compiledFile.toList) := by
  simp only [expand, h, bind, Except.bind]
  cases importer.globbed spec.base spec.kind (spec.parent :: importer.compiledFile.toList) <;> rfl

theorem globbed_eq_error {leftOut : List Path}
    (h : Glob.IsTooLong importer.tree importer.current base) :
    importer.globbed base kind leftOut = .error (.breach .system) := by
  simp [globbed, Glob.entries_eq_error h, bind, Except.bind]

theorem globbed_eq_importable {leftOut : List Path}
    (h : ¬ Glob.IsTooLong importer.tree importer.current base) :
    importer.globbed base kind leftOut =
      Glob.importable importer.isRequirable leftOut
        ((Glob.listed importer.tree importer.current base kind).mergeSort Glob.inOrder) := by
  simp [globbed, Glob.entries_eq_ok h, bind, Except.bind]

theorem isRequirable_of_isTooLong {path : Path}
    (h : Glob.IsTooLong importer.tree importer.current path) :
    importer.isRequirable path = .error (.breach .system) := by
  rw [Glob.IsTooLong] at h
  simp [isRequirable, Catalog.isRequirable, FileTree.isFile, FileTree.leadsTo, h, bind,
    Except.bind]

theorem isRequirable_eq_error {extensions : List Text}
    (hextensions : importer.catalog.settings.extensions = extensions.map .text) {path : Path}
    {fault : Fault} (h : importer.isRequirable path = .error fault) :
    Glob.IsTooLong importer.tree importer.current path ∧ fault = .breach .system := by
  by_cases hlong : Glob.IsTooLong importer.tree importer.current path
  · rw [isRequirable_of_isTooLong hlong] at h
    exact ⟨hlong, (Except.error.inj h).symm⟩
  · obtain ⟨answer, hanswer⟩ := isRequirable_eq_ok hextensions hlong
    rw [h] at hanswer
    cases hanswer

theorem mem_leftOut_iff (file path : Path) :
    path ∉ file :: importer.compiledFile.toList ↔
      path ≠ file ∧ importer.compiledFile ≠ some path := by
  simp [Option.mem_toList, not_or]

/-! ## Paths that a glob import names -/

/-- A way from the base of names that passes real directories only. -/
def Names (importer : Importer) (kind : GlobKind) (base path : Path) : Prop :=
  ∃ names, names ≠ [] ∧ (∀ name ∈ names, Path.isName name = true) ∧
    kind.reaches names = true ∧ path = base.descend names ∧
    ∀ between, between <+: names → between ≠ [] → between ≠ names →
      importer.tree.IsRealDirectory importer.current (base.descend between)

theorem lists_iff_names (habsolute : base.isAbsolute = true) {path : Path}
    (h : importer.isRequirable path = .ok true) :
    Glob.Lists importer.tree importer.current base kind path ↔
      importer.Names kind base path := by
  -- A file that may be imported is there, so its path is not too long to be walked.
  have hlocate : ∃ address, importer.tree.locate true importer.current path = .ok address := by
    unfold isRequirable Catalog.isRequirable FileTree.isFile FileTree.leadsTo
      FileTree.find? at h
    cases hlocate : importer.tree.locate true importer.current path with
    | ok address => exact ⟨address, rfl⟩
    | error obstacle => cases obstacle <;> simp [hlocate, bind, Except.bind, pure, Except.pure] at h
  obtain ⟨reached, hreached⟩ := hlocate
  constructor
  · rintro ⟨names, hempty, hreaches, rfl, address, hbase, hdirectory, hsome⟩
    have hnames : ∀ name ∈ names, Path.isName name = true := fun name hname =>
      Listing.isName_of_isSome importer.tree.wellFormed hsome name (List.mem_append_right _ hname)
    exact ⟨names, hempty, hnames, hreaches, rfl,
      (FileTree.isSome_get?_iff_isRealDirectory habsolute hempty hnames hreached).mp
        ⟨address, hbase, hdirectory, hsome⟩⟩
  · rintro ⟨names, hempty, hnames, hreaches, rfl, hdirectories⟩
    exact ⟨names, hempty, hreaches, rfl,
      (FileTree.isSome_get?_iff_isRealDirectory habsolute hempty hnames hreached).mpr
        hdirectories⟩

/-- The files that a glob import comes to, in the order of their written paths. -/
structure IsExpansion (importer : Importer) (kind : GlobKind) (base file : Path)
    (files : List Path) : Prop where
  mem_iff : ∀ path, path ∈ files ↔
    importer.Names kind base path ∧ importer.isRequirable path = .ok true ∧
      path ≠ file ∧ importer.compiledFile ≠ some path
  increasing : files.Pairwise fun first second => first.text.precedes second.text = true
  nodup : files.Nodup
  eq_nil : importer.tree.isDirectoryAt importer.current base = .ok false → files = []

theorem isExpansion_filter (habsolute : base.isAbsolute = true) (hproper : base.IsProper)
    (hlong : ¬ Glob.IsTooLong importer.tree importer.current base) (kind : GlobKind)
    (file : Path) :
    importer.IsExpansion kind base file
      (((Glob.listed importer.tree importer.current base kind).mergeSort Glob.inOrder).filter
        (Glob.keeps importer.isRequirable (file :: importer.compiledFile.toList))) where
  mem_iff path := by
    have hkeeps : Glob.keeps importer.isRequirable (file :: importer.compiledFile.toList) path =
        true ↔ (path ≠ file ∧ importer.compiledFile ≠ some path) ∧
          importer.isRequirable path = .ok true := by
      rw [Glob.keeps, Bool.and_eq_true, ← mem_leftOut_iff]
      cases importer.isRequirable path <;> simp
    rw [List.mem_filter, List.mem_mergeSort, Glob.mem_listed_iff, hkeeps]
    constructor
    · rintro ⟨hlists, hkept, hrequirable⟩
      exact ⟨(lists_iff_names habsolute hrequirable).mp hlists, hrequirable, hkept⟩
    · rintro ⟨hnames, hrequirable, hkept⟩
      exact ⟨(lists_iff_names habsolute hrequirable).mpr hnames, hkept, hrequirable⟩
  increasing :=
    (Text.pairwise_precedes_mergeSort Path.text
      (Glob.pairwise_text_listed importer.tree importer.current hproper kind)).filter _
  nodup := ((List.mergeSort_perm _ _).nodup_iff.mpr
    (Glob.nodup_listed importer.tree importer.current base kind)).filter _
  eq_nil hfalse := by
    have hnone : Glob.listed importer.tree importer.current base kind = [] := by
      have hanswer := hfalse.symm.trans (Glob.isDirectoryAt_eq_ok hlong)
      unfold Glob.listed
      cases hlocate : importer.tree.locate true importer.current base with
      | error obstacle => rfl
      | ok address =>
          rw [hlocate] at hanswer
          simp [(Except.ok.inj hanswer).symm]
    rw [hnone, List.mergeSort_nil, List.filter_nil]

section Reordered

variable {other : FileTree}

def withTree (importer : Importer) (tree : FileTree) : Importer := { importer with tree }

theorem isRequirable_eq_of_perm (h : other.entries.Perm importer.tree.entries) :
    (importer.withTree other).isRequirable = importer.isRequirable := by
  funext path
  simp only [isRequirable, withTree, Catalog.isRequirable, FileTree.isFile, FileTree.leadsTo,
    FileTree.find?_congr (FileTree.get?_eq_of_perm h)]

theorem find_eq_of_perm (h : other.entries.Perm importer.tree.entries) :
    (importer.withTree other).find = importer.find := by
  funext spelling parent
  have hsource : importer.catalog.source other importer.current =
      importer.catalog.source importer.tree importer.current :=
    congrArg (Source.mk importer.catalog.tryPaths) (isRequirable_eq_of_perm h)
  simp only [find, resolver, withTree, hsource]

theorem globSpec_eq_of_perm (h : other.entries.Perm importer.tree.entries) :
    (importer.withTree other).globSpec = importer.globSpec := by
  funext spelling parent
  simp only [globSpec, importingFile, rootPath, find_eq_of_perm h]
  rfl

theorem globbed_eq_of_perm (h : other.entries.Perm importer.tree.entries)
    (hproper : base.IsProper) (leftOut : List Path) :
    (importer.withTree other).globbed base kind leftOut =
      importer.globbed base kind leftOut := by
  have hlong : Glob.IsTooLong (importer.withTree other).tree (importer.withTree other).current
      base ↔ Glob.IsTooLong importer.tree importer.current base := by
    unfold Glob.IsTooLong
    simp only [withTree, FileTree.find?_congr (FileTree.get?_eq_of_perm h)]
  by_cases hbase : Glob.IsTooLong importer.tree importer.current base
  · rw [globbed_eq_error hbase, globbed_eq_error (hlong.mpr hbase)]
  · rw [globbed_eq_importable hbase, globbed_eq_importable (mt hlong.mp hbase),
      isRequirable_eq_of_perm h]
    have hsorted := Text.mergeSort_eq_of_perm Path.text
      (Glob.pairwise_text_listed importer.tree importer.current hproper kind)
      (Glob.listed_perm h importer.current base kind)
    exact congrArg _ hsorted

theorem expand_eq_of_perm (h : other.entries.Perm importer.tree.entries)
    (spelling parent : Text) :
    (importer.withTree other).expand spelling parent =
      importer.expand spelling parent := by
  simp only [expand, globSpec_eq_of_perm h]
  cases hspec : importer.globSpec spelling parent with
  | error fault => rfl
  | ok spec =>
      simp only [bind, Except.bind, globbed_eq_of_perm h (isNormal_of_globSpec hspec).isProper]
      rfl

end Reordered

/-- The expansion of a glob import beside its importing file.  It is a fault exactly when the
base, or something listed there that is not left out, is too long to be asked about;
otherwise it is the sorted list of the files that the import names.  In either case the
order of the listing does not matter. -/
theorem expand_namesFiles {extensions : List Text}
    (hextensions : importer.catalog.settings.extensions = extensions.map .text)
    (hstar : '*' ∉ residual) (hspelled : kind.IsSpelled residual spelling)
    (hfile : importer.IsImportingFile parent file) :
    ((∃ files, (importer.expand spelling parent).outcome = .ok files ∧
        importer.IsExpansion kind (Glob.baseOf file residual) file files) ∨
      (importer.expand spelling parent).outcome = .error (.breach .system)) ∧
    ((importer.expand spelling parent).outcome = .error (.breach .system) ↔
      Glob.IsTooLong importer.tree importer.current (Glob.baseOf file residual) ∨
      ∃ path, Glob.Lists importer.tree importer.current (Glob.baseOf file residual) kind path ∧
        path ≠ file ∧ importer.compiledFile ≠ some path ∧
        Glob.IsTooLong importer.tree importer.current path) ∧
    ∀ other : FileTree, other.entries.Perm importer.tree.entries →
      (importer.withTree other).expand spelling parent =
        importer.expand spelling parent := by
  have houtcome := expand_outcome (globSpec_eq_ok hstar hspelled hfile)
  have habsolute : (Glob.baseOf file residual).isAbsolute = true :=
    Glob.isAbsolute_spelled (isAbsolute_importingFile (importingFile_eq_ok hfile)) residual
  refine and_assoc.mp ⟨?_, fun other hperm => expand_eq_of_perm hperm spelling parent⟩
  rw [houtcome]
  by_cases hlong : Glob.IsTooLong importer.tree importer.current (Glob.baseOf file residual)
  · rw [globbed_eq_error hlong]
    exact ⟨.inr rfl, iff_of_true rfl (.inl hlong)⟩
  · rw [globbed_eq_importable hlong]
    have hexpansion := isExpansion_filter habsolute (Glob.isProper_baseOf file residual) hlong
      kind file
    have htested := Glob.importable_eq_filter importer.isRequirable
      (file :: importer.compiledFile.toList)
      ((Glob.listed importer.tree importer.current (Glob.baseOf file residual) kind).mergeSort
        Glob.inOrder)
    rcases htested with
      ⟨path, hpath, hkept, fault, hfault, hresult⟩ | ⟨hall, hresult⟩
    · obtain ⟨hpathLong, rfl⟩ := isRequirable_eq_error hextensions hfault
      rw [List.mem_mergeSort, Glob.mem_listed_iff] at hpath
      rw [mem_leftOut_iff] at hkept
      exact ⟨.inr hresult, iff_of_true hresult (.inr ⟨path, hpath, hkept.1, hkept.2, hpathLong⟩)⟩
    · refine ⟨.inl ⟨_, hresult, hexpansion⟩, iff_of_false (by simp [hresult]) ?_⟩
      rintro (hbase | ⟨path, hpath, hfile, hcompiled, hpathLong⟩)
      · exact hlong hbase
      · obtain ⟨answer, hanswer⟩ := hall path
          (by rwa [List.mem_mergeSort, Glob.mem_listed_iff])
          ((mem_leftOut_iff file path).mpr ⟨hfile, hcompiled⟩)
        rw [isRequirable_eq_map hextensions] at hanswer
        rw [Glob.IsTooLong] at hpathLong
        simp [FileTree.isFile, FileTree.leadsTo, hpathLong, Except.map] at hanswer

def linkedTree : FileTree :=
  let start : Path := ⟨.root, []⟩
  let put := fun (tree : FileTree) (path : String) entry =>
    tree.put start (.ofText path.toList) entry
  let files := put (put .empty "/c/x.scss" (.file ⟨#[]⟩)) "/c/d/y.scss" (.file ⟨#[]⟩)
  put files "/c/l" (.link "d".toList)

def linkedImporter : Importer := { twoRootsImporter with tree := linkedTree }

theorem expand_belowLinkedTree :
    (linkedImporter.expand "**/*".toList "/c/x.scss".toList).outcome =
        .ok [⟨.root, ["c".toList, "d".toList, "y.scss".toList]⟩] ∧
      linkedImporter.IsExpansion .recursive ⟨.root, ["c".toList]⟩
        ⟨.root, ["c".toList, "x.scss".toList]⟩
        [⟨.root, ["c".toList, "d".toList, "y.scss".toList]⟩] := by
  have houtcome : (linkedImporter.expand "**/*".toList "/c/x.scss".toList).outcome =
      .ok [⟨.root, ["c".toList, "d".toList, "y.scss".toList]⟩] := by
    cbv
  have hbase : Glob.baseOf ⟨.root, ["c".toList, "x.scss".toList]⟩ [] =
      ⟨.root, ["c".toList]⟩ := by
    cbv
  have hfile : linkedImporter.IsImportingFile "/c/x.scss".toList
      ⟨.root, ["c".toList, "x.scss".toList]⟩ :=
    .inl ⟨by rfl, by cbv⟩
  have hspelled : GlobKind.recursive.IsSpelled [] "**/*".toList := .inl ⟨rfl, rfl⟩
  rcases (expand_namesFiles (by rfl) (by simp) hspelled hfile).1 with
    ⟨files, hfiles, hexpansion⟩ | hfault
  · obtain rfl := Except.ok.inj (hfiles.symm.trans houtcome)
    exact ⟨houtcome, hbase ▸ hexpansion⟩
  · cases hfault.symm.trans houtcome

set_option maxRecDepth 4000 in
/-- A base whose name is too long is no directory, but asking about it is a fault. -/
theorem expand_tooLongBase :
    GlobKind.singleLevel.IsSpelled (List.replicate 300 'a')
        (List.replicate 300 'a' ++ "/*".toList) ∧
      linkedImporter.IsImportingFile "/c/x.scss".toList
        ⟨.root, ["c".toList, "x.scss".toList]⟩ ∧
      ¬ ∃ files, (linkedImporter.expand (List.replicate 300 'a' ++ "/*".toList)
        "/c/x.scss".toList).outcome = .ok files := by
  have houtcome : (linkedImporter.expand (List.replicate 300 'a' ++ "/*".toList)
      "/c/x.scss".toList).outcome = .error (.breach .system) := by
    cbv
  refine ⟨.inr rfl, .inl ⟨by rfl, by cbv⟩, ?_⟩
  rintro ⟨files, hfiles⟩
  cases houtcome.symm.trans hfiles

end Importer

end Stylesheets
