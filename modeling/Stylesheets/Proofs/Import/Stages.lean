import Mathlib
import Stylesheets.Import.Content
import Stylesheets.Proofs.Path.Normal
import Stylesheets.Proofs.Text.Trimming
import Stylesheets.Template.Render

/-!
# The stages of a file

The text of a file goes through stages on its way to the content of an import:
it is brought into one form, rendered once for every template extension, and
converted.  The name of the file alone says which of these stages there are.
The first stage that fails is the failure of the whole.
-/

namespace Stylesheets

namespace Attributes

def HasStylesheetExtension (name : Text) : Prop :=
  ".css".toList ∈ extensionChain name ∨ ".scss".toList ∈ extensionChain name ∨
    ".sass".toList ∈ extensionChain name

instance (name : Text) : Decidable (HasStylesheetExtension name) :=
  inferInstanceAs (Decidable (_ ∨ _ ∨ _))

def renderings (name : Text) : Nat := (extensionChain name).count Processor.templateExtension

theorem hasStylesheetExtension_iff (name : Text) :
    (extensionChain name).any isStylesheetExtension = true ↔ HasStylesheetExtension name := by
  simp only [List.any_eq_true, isStylesheetExtension, plainExtension, compiledExtensions,
    HasStylesheetExtension, Bool.or_eq_true, beq_iff_eq, List.elem_eq_mem, List.mem_cons,
    List.not_mem_nil, or_false, decide_eq_true_eq]
  constructor
  · rintro ⟨extension, hmem, rfl | rfl | rfl⟩
    · exact .inl hmem
    · exact .inr (.inl hmem)
    · exact .inr (.inr hmem)
  · rintro (hmem | hmem | hmem)
    · exact ⟨_, hmem, .inl rfl⟩
    · exact ⟨_, hmem, .inr (.inl rfl)⟩
    · exact ⟨_, hmem, .inr (.inr rfl)⟩

theorem filter_engines (chain : List Text) :
    (chain.filterMap engine?).filter (fun processor => !processor.isStylesheet) =
      List.replicate (chain.count Processor.templateExtension) .template := by
  induction chain with
  | nil => rfl
  | cons extension rest ih =>
      by_cases htemplate : extension = Processor.templateExtension
      · have hengine : engine? extension = some .template := by
          rw [htemplate]
          rfl
        rw [List.filterMap_cons_some hengine, List.filter_cons_of_pos rfl, ih, htemplate,
          List.count_cons_self, List.replicate_succ]
      · rw [List.count_cons_of_ne htemplate, ← ih]
        by_cases hcompiled : compiledExtensions.elem extension = true
        · have hengine : engine? extension = some (.stylesheet extension) := if_pos hcompiled
          rw [List.filterMap_cons_some hengine]
          exact List.filter_cons_of_neg Bool.false_ne_true
        · have hengine : engine? extension = none := by
            rw [engine?, if_neg hcompiled, if_neg htemplate]
          rw [List.filterMap_cons_none hengine]

theorem processors_ofName (name : Text) :
    (ofName name).processors =
      (if HasStylesheetExtension name then [.charset] else []) ++
        List.replicate (renderings name) .template := by
  rw [processors, List.filter_append, List.filter_reverse]
  simp only [ofName, filter_engines, List.reverse_replicate, hasStylesheetExtension_iff, renderings]
  split <;> rfl

end Attributes

/-! ## Running the stages -/

namespace Template.Engine

variable (engine : Engine) (bindings : Table) (path : Path)

/-- A template that is rendered again and again. -/
def processTimes : Nat → Text → Except Fault Text
  | 0, text => .ok text
  | count + 1, text => do processTimes count (← engine.process bindings path text)

theorem processAll_templates (count : Nat) (text : Text) :
    Processor.processAll engine bindings path text (List.replicate count .template) =
      engine.processTimes bindings path count text := by
  induction count generalizing text with
  | zero => rfl
  | succ count ih =>
      rw [List.replicate_succ, Processor.processAll, processTimes]
      exact bind_congr fun rendered => ih rendered

theorem processTimes_eq_error_iff {count : Nat} {text : Text} {fault : Fault} :
    engine.processTimes bindings path count text = .error fault ↔
      ∃ before < count, ∃ middle,
        engine.processTimes bindings path before text = .ok middle ∧
          engine.process bindings path middle = .error fault := by
  induction count generalizing text with
  | zero => simp [processTimes]
  | succ count ih =>
      rw [Nat.exists_lt_succ_left]
      simp only [processTimes, Except.ok.injEq, exists_eq_left']
      cases hfirst : engine.process bindings path text with
      | error cause => simp [bind, Except.bind]
      | ok rendered =>
          simp only [reduceCtorEq, false_or]
          exact ih

end Template.Engine

namespace Importer

variable {importer : Importer} {marker : Text} {path : Path}

def written (importer : Importer) (path : Path) : Except Fault Text :=
  importer.catalog.evaluate importer.tree importer.current path []

def inOneForm (path : Path) (text : Text) : Text :=
  if Attributes.HasStylesheetExtension path.name then Charset.normalize text else text

def rendered (importer : Importer) (path : Path) (count : Nat) (text : Text) : Except Fault Text :=
  importer.catalog.engine.processTimes importer.catalog.settings.bindings path count
    (inOneForm path text)

/-- The conversion of files whose name contains the marker; others need none. -/
def convertedFor (marker : Text) (path : Path) (text : Text) : Except Fault Text :=
  if marker <:+: path.name then Dialect.indented.converted text else .ok text

/-- A stage that fails although all stages before it succeed. -/
inductive BreaksOff (importer : Importer) (marker : Text) (path : Path) (fault : Fault) : Prop
  | reading (h : importer.written path = .error fault)
  | rendering {text middle : Text} {before : Nat} (hread : importer.written path = .ok text)
      (hlt : before < Attributes.renderings path.name)
      (hbefore : importer.rendered path before text = .ok middle)
      (h : importer.catalog.engine.process importer.catalog.settings.bindings path middle =
        .error fault)
  | conversion {text last : Text} (hread : importer.written path = .ok text)
      (hlast : importer.rendered path (Attributes.renderings path.name) text = .ok last)
      (hmarker : marker <:+: path.name) (h : Dialect.indented.converted last = .error fault)

theorem evaluate_eq_bind (importer : Importer) (path : Path) (processors : List Processor) :
    importer.catalog.evaluate importer.tree importer.current path processors =
      importer.written path >>= fun text =>
        Processor.processAll importer.catalog.engine importer.catalog.settings.bindings path text
          processors := by
  unfold written Catalog.evaluate
  split
  · rfl
  · rfl
  · split <;> rfl

theorem evaluate_processors_ofName (importer : Importer) (path : Path) :
    importer.catalog.evaluate importer.tree importer.current path
        (Attributes.ofName path.name).processors =
      importer.written path >>= importer.rendered path (Attributes.renderings path.name) := by
  rw [evaluate_eq_bind, Attributes.processors_ofName]
  refine bind_congr fun text => ?_
  rw [rendered, inOneForm, ← Template.Engine.processAll_templates]
  split <;> rfl

theorem converted_ofPath (marker : Text) (path : Path) (text : Text) :
    (Dialect.ofPath marker path).converted text = convertedFor marker path text := by
  unfold Dialect.ofPath convertedFor
  simp only [Text.contains_iff_isInfix]
  split <;> rfl

theorem written_eq_ok_iff {text : Text} :
    importer.written path = .ok text ↔
      ∃ bytes, importer.tree.content? importer.current path = .ok bytes ∧
        Text.decode? bytes = some text := by
  unfold written Catalog.evaluate
  cases importer.tree.content? importer.current path with
  | error obstacle => cases obstacle <;> simp
  | ok bytes => cases hdecode : Text.decode? bytes <;> simp [Processor.processAll, hdecode]

theorem content_eq_bind (hmarker : importer.naming.marker = .text marker) :
    importer.content none path = do
      let text ← importer.written path
      let last ← importer.rendered path (Attributes.renderings path.name) text
      return { path, content := ← convertedFor marker path last } := by
  unfold content
  rw [hmarker, Dialect.ofPathWith]
  simp only [evaluate_processors_ofName, ← converted_ofPath, bind_assoc]
  rfl

theorem content_eq_error_iff (hmarker : importer.naming.marker = .text marker) {fault : Fault} :
    importer.content none path = .error fault ↔ importer.BreaksOff marker path fault := by
  rw [content_eq_bind hmarker, Fault.bind_eq_error_iff]
  constructor
  · rintro (hread | ⟨text, hread, hfault⟩)
    · exact .reading hread
    rcases Fault.bind_eq_error_iff.mp hfault with hrender | ⟨last, hlast, hconvert⟩
    · obtain ⟨before, hlt, middle, hbefore, h⟩ :=
        (Template.Engine.processTimes_eq_error_iff _ _ _).mp hrender
      exact .rendering hread hlt hbefore h
    rcases Fault.bind_eq_error_iff.mp hconvert with hconverted | ⟨content, -, hdone⟩
    · unfold convertedFor at hconverted
      split at hconverted
      · next hcontains => exact .conversion hread hlast hcontains hconverted
      · cases hconverted
    · cases hdone
  · rintro (hread | ⟨hread, hlt, hbefore, h⟩ | ⟨hread, hlast, hcontains, h⟩)
    · exact .inl hread
    · refine .inr ⟨_, hread, Fault.bind_eq_error_iff.mpr (.inl ?_)⟩
      exact (Template.Engine.processTimes_eq_error_iff _ _ _).mpr ⟨_, hlt, _, hbefore, h⟩
    · refine .inr ⟨_, hread, Fault.bind_eq_error_iff.mpr (.inr ⟨_, hlast, ?_⟩)⟩
      exact Fault.bind_eq_error_iff.mpr (.inl ((if_pos hcontains).trans h))

/--
A file is read, brought into one form if it is a stylesheet, rendered once for
every template extension and converted if its name contains the marker, in this
order and with no processor of the compiler.  It has no content exactly if one
of these stages fails after all before it have succeeded, and then for the
reason of that stage.
-/
theorem content_inStages (hmarker : importer.naming.marker = .text marker) (path : Path) :
    (importer.content none path = do
      let text ← importer.written path
      let last ← importer.catalog.engine.processTimes importer.catalog.settings.bindings path
        ((Attributes.extensionChain path.name).count ".hbs".toList)
        (if Attributes.HasStylesheetExtension path.name then Charset.normalize text else text)
      let content ←
        (if marker <:+: path.name then Dialect.indented.converted last else .ok last)
      return { path, content }) ∧
    (∀ text, importer.written path = .ok text ↔
      ∃ bytes, importer.tree.content? importer.current path = .ok bytes ∧
        Text.decode? bytes = some text) ∧
    (∀ processor ∈ (Attributes.ofName path.name).processors, processor.family ≠ .stylesheet) ∧
    ∀ fault, importer.content none path = .error fault ↔
      importer.BreaksOff marker path fault := by
  refine ⟨content_eq_bind hmarker, fun text => written_eq_ok_iff, fun processor hprocessor => ?_,
    fun fault => content_eq_error_iff hmarker⟩
  rw [Attributes.processors_ofName] at hprocessor
  rcases List.mem_append.mp hprocessor with hcharset | htemplate
  · split at hcharset
    · rw [List.mem_singleton.mp hcharset]
      decide
    · cases hcharset
  · rw [(List.mem_replicate.mp htemplate).2]
    decide

/-! ## A template in a template -/

def nestedPath : Path := ⟨.root, ["_a.sass.hbs.hbs".toList]⟩

def nestedText : Text := "\ufeff\x7b\x7bx\x7d\x7d\r\n".toList

def innerText : Text := "\x7b\x7by\x7d\x7d".toList

def nestedImporter : Importer where
  catalog := {
    settings := {
      roots := [⟨.root, []⟩]
      rootPath := ⟨.root, []⟩
      extensions := []
      prefixes := []
      marker := .text Settings.defaultMarker
      excludes := []
      bindings := [("x".toList, .text innerText), ("y".toList, .text "c".toList)]
      roots_isAbsolute := Path.forall_mem_root_isAbsolute
      rootPath_isAbsolute := Path.isAbsolute_root }
    excluded := none
    engine := Template.handlebars }
  naming := .default
  tree := FileTree.empty.put ⟨.root, []⟩ nestedPath (.file (Text.encode nestedText))
  current := ⟨.root, []⟩
  compiling := none

theorem process_nestedText :
    Template.handlebars.process nestedImporter.catalog.settings.bindings nestedPath
      (Charset.normalize nestedText) = .ok (innerText ++ ['\n']) := by
  have hparse : Template.parse? (Charset.normalize nestedText) =
      some [.expression true ["x".toList] [], .literal ['\n']] := by
    cbv
  rw [Template.process_handlebars hparse]
  rfl

theorem process_innerText :
    Template.handlebars.process nestedImporter.catalog.settings.bindings nestedPath
      (innerText ++ ['\n']) = .ok "c\n".toList := by
  have hparse : Template.parse? (innerText ++ ['\n']) =
      some [.expression true ["y".toList] [], .literal ['\n']] := by
    cbv
  rw [Template.process_handlebars hparse]
  rfl

/-- What the first rendering leaves is rendered once more, and then converted. -/
theorem content_nestedTemplate :
    nestedImporter.naming.marker = .text Settings.defaultMarker ∧
      (Attributes.ofName nestedPath.name).processors = [.charset, .template, .template] ∧
      nestedImporter.content none nestedPath =
        .ok ⟨nestedPath, "c \x7b\x7d\n".toList⟩ := by
  have hcontent (bytes : ByteArray) :
      (FileTree.empty.put ⟨.root, []⟩ nestedPath (.file bytes)).content? ⟨.root, []⟩ nestedPath =
        .ok bytes := by
    cbv
  have hdecode : Text.decode? (Text.encode nestedText) = some nestedText := by decide +kernel
  have hread : nestedImporter.written nestedPath = .ok nestedText :=
    written_eq_ok_iff.mpr ⟨_, hcontent _, hdecode⟩
  have hconverted : Dialect.indented.converted "c\n".toList =
      .ok "c \x7b\x7d\n".toList := by
    cbv
  have hlast : nestedImporter.catalog.engine.processTimes nestedImporter.catalog.settings.bindings
      nestedPath 2 (Charset.normalize nestedText) = .ok "c\n".toList := by
    change Template.handlebars.processTimes _ _ 2 _ = _
    rw [Template.Engine.processTimes, process_nestedText]
    change Template.handlebars.processTimes _ _ 1 _ = _
    rw [Template.Engine.processTimes, process_innerText]
    rfl
  have hcount : (Attributes.extensionChain nestedPath.name).count ".hbs".toList = 2 := by
    decide +kernel
  have hkind : Attributes.HasStylesheetExtension nestedPath.name := by decide +kernel
  have hmarker : Settings.defaultMarker <:+: nestedPath.name := by decide +kernel
  refine ⟨rfl, by decide +kernel, ?_⟩
  rw [(content_inStages rfl nestedPath).1, hread, hcount]
  simp only [bind, Except.bind, if_pos hkind, if_pos hmarker, hlast, hconverted]
  rfl

end Importer

end Stylesheets
