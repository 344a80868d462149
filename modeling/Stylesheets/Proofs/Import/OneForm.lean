import Stylesheets.Proofs.Import.Stages

/-!
# Files of one text

A text may be written with a mark at its beginning or without, and with line
ends of either kind.  Stylesheets are brought into one form before anything
else is done with them, so it makes no difference to what follows in which of
these ways the file of a stylesheet is written.
-/

namespace Stylesheets

namespace Charset

def widenLineEnds (text : Text) : Text :=
  text.flatMap fun c => if c = '\n' then ['\r', '\n'] else [c]

/-- The ways to write a text: with a mark and without, with line ends of either kind. -/
def writings (text : Text) : List Text :=
  [text, Text.byteOrderMark :: text, widenLineEnds text,
    Text.byteOrderMark :: widenLineEnds text]

theorem unifyLineEnds_cons {c : Char} (h : c ≠ '\r') (rest : Text) :
    Text.unifyLineEnds (c :: rest) = c :: Text.unifyLineEnds rest := by
  rw [Text.unifyLineEnds]
  rintro _ rfl
  exact absurd rfl h

theorem unifyLineEnds_of_not_mem {text : Text} (h : '\r' ∉ text) :
    Text.unifyLineEnds text = text := by
  induction text with
  | nil => rfl
  | cons c rest ih =>
      rw [List.mem_cons, not_or] at h
      rw [unifyLineEnds_cons (Ne.symm h.1), ih h.2]

theorem unifyLineEnds_widenLineEnds {text : Text} (h : '\r' ∉ text) :
    Text.unifyLineEnds (widenLineEnds text) = text := by
  induction text with
  | nil => rfl
  | cons c rest ih =>
      rw [List.mem_cons, not_or] at h
      have hrest := ih h.2
      unfold widenLineEnds at hrest ⊢
      rw [List.flatMap_cons]
      by_cases hend : c = '\n'
      · subst hend
        exact congrArg ('\n' :: ·) hrest
      · rw [if_neg hend, List.singleton_append, unifyLineEnds_cons (Ne.symm h.1), hrest]

theorem dropMark_of_head? {text : Text} (h : text.head? ≠ some Text.byteOrderMark) :
    dropMark text = text := by
  cases text with
  | nil => rfl
  | cons c rest => exact if_neg fun hmark => h (congrArg some hmark)

theorem head?_widenLineEnds {text : Text} (h : text.head? ≠ some Text.byteOrderMark) :
    (widenLineEnds text).head? ≠ some Text.byteOrderMark := by
  cases text with
  | nil => exact h
  | cons c rest =>
      unfold widenLineEnds
      rw [List.flatMap_cons]
      by_cases hend : c = '\n'
      · rw [if_pos hend]
        exact fun hmark => absurd (Option.some.inj hmark) (by decide)
      · rw [if_neg hend]
        exact h

theorem normalize_of_mem_writings {text written : Text} (hreturn : '\r' ∉ text)
    (hmark : text.head? ≠ some Text.byteOrderMark) (h : written ∈ writings text) :
    normalize written = text := by
  simp only [writings, List.mem_cons, List.not_mem_nil, or_false] at h
  have hdrop (rest : Text) : dropMark (Text.byteOrderMark :: rest) = rest := by
    rw [dropMark, if_pos rfl]
  rcases h with rfl | rfl | rfl | rfl
  · rw [normalize, dropMark_of_head? hmark, unifyLineEnds_of_not_mem hreturn]
  · rw [normalize, hdrop, unifyLineEnds_of_not_mem hreturn]
  · rw [normalize, dropMark_of_head? (head?_widenLineEnds hmark),
      unifyLineEnds_widenLineEnds hreturn]
  · rw [normalize, hdrop, unifyLineEnds_widenLineEnds hreturn]

end Charset

/-! ## What follows the one form -/

namespace Importer

variable {importer : Importer} {path : Path}

def dialectFor (importer : Importer) (dialect : Option Dialect) (path : Path) :
    Except Fault Dialect :=
  match dialect with
  | some dialect => .ok dialect
  | none => Dialect.ofPathWith importer.naming.marker path

/-- The stages that the text of a stylesheet goes through in its one form. -/
def finished (importer : Importer) (dialect : Option Dialect) (path : Path) (text : Text) :
    Except Fault ImportedFile := do
  let dialect ← importer.dialectFor dialect path
  let last ← importer.catalog.engine.processTimes importer.catalog.settings.bindings path
    (Attributes.renderings path.name) text
  return { path, content := ← dialect.converted last }

theorem content_eq_finished (hname : Attributes.HasStylesheetExtension path.name) {written : Text}
    (h : importer.written path = .ok written) (dialect : Option Dialect) :
    importer.content dialect path = importer.finished dialect path (Charset.normalize written) := by
  have hdialect : importer.content dialect path = (do
      let dialect ← importer.dialectFor dialect path
      let text ← importer.catalog.evaluate importer.tree importer.current path
        (Attributes.ofName path.name).processors
      return { path, content := ← dialect.converted text }) := by
    cases dialect <;> rfl
  rw [hdialect, finished, evaluate_processors_ofName, h]
  refine bind_congr fun dialect => ?_
  change rendered importer path _ written >>= _ = _
  rw [rendered, inOneForm, if_pos hname]

/--
It makes no difference in which of the four ways the file of a stylesheet is
written: whatever its dialect, and whether or not it is a template, it has the
same content or fails for the same reason, which is the outcome of all later
stages on the text itself.
-/
theorem content_writings (importer : Importer) (dialect : Option Dialect)
    (hname : Attributes.HasStylesheetExtension path.name) {text : Text} (hreturn : '\r' ∉ text)
    (hmark : text.head? ≠ some Text.byteOrderMark) {tree other : FileTree}
    {written rewritten : Text} (hwritten : written ∈ Charset.writings text)
    (hrewritten : rewritten ∈ Charset.writings text)
    (htree : tree.content? importer.current path = .ok (Text.encode written))
    (hother : other.content? importer.current path = .ok (Text.encode rewritten)) :
    { importer with tree := tree }.content dialect path =
        { importer with tree := other }.content dialect path ∧
      { importer with tree := tree }.content dialect path =
        importer.finished dialect path text := by
  have hfinished : ∀ (tree : FileTree) (written : Text), written ∈ Charset.writings text →
      tree.content? importer.current path = .ok (Text.encode written) →
      { importer with tree := tree }.content dialect path =
        importer.finished dialect path text := by
    intro tree written hmem hcontent
    have hread : { importer with tree := tree }.written path = .ok written :=
      written_eq_ok_iff.mpr ⟨_, hcontent, Text.decode?_encode written⟩
    rw [content_eq_finished hname hread,
      Charset.normalize_of_mem_writings hreturn hmark hmem]
    rfl
  have hfirst := hfinished tree written hwritten htree
  exact ⟨hfirst.trans (hfinished other rewritten hrewritten hother).symm, hfirst⟩

def cardPath : Path := ⟨.root, ["_card.css.sass.hbs".toList]⟩

def cardText : Text := "a\n  b: \x7b\x7by\x7d\x7d\n".toList

def cardTree (written : Text) : FileTree :=
  FileTree.empty.put ⟨.root, []⟩ cardPath (.file (Text.encode written))

theorem content?_cardTree (written : Text) :
    (cardTree written).content? ⟨.root, []⟩ cardPath = .ok (Text.encode written) := by
  unfold cardTree
  generalize Text.encode written = bytes
  cbv

theorem finished_cardText :
    nestedImporter.finished none cardPath cardText =
      .ok ⟨cardPath, "a \x7b\n  b: c;\n\x7d\n".toList⟩ := by
  have hparse : Template.parse? cardText =
      some [.literal "a\n  b: ".toList, .expression true ["y".toList] [], .literal ['\n']] := by
    cbv
  have hrender : nestedImporter.catalog.engine.process nestedImporter.catalog.settings.bindings
      cardPath cardText = .ok "a\n  b: c\n".toList := by
    change Template.handlebars.process _ _ _ = _
    rw [Template.process_handlebars hparse]
    rfl
  have hcount : Attributes.renderings cardPath.name = 1 := by decide +kernel
  have hconvert : Indented.convert "a\n  b: c\n".toList =
      .ok "a \x7b\n  b: c;\n\x7d\n".toList := by
    decide +kernel
  have hconverted : Dialect.indented.converted "a\n  b: c\n".toList =
      .ok "a \x7b\n  b: c;\n\x7d\n".toList := by
    rw [Dialect.converted, hconvert]
    rfl
  have hdialect : nestedImporter.dialectFor none cardPath = .ok .indented :=
    congrArg Except.ok (by decide +kernel : Dialect.ofPath Settings.defaultMarker cardPath = _)
  rw [finished, hdialect, hcount, Template.Engine.processTimes, hrender]
  simp only [bind, Except.bind, Template.Engine.processTimes, hconverted]
  rfl

theorem content_cardWritings :
    Attributes.HasStylesheetExtension cardPath.name ∧
      '\r' ∉ cardText ∧ cardText.head? ≠ some Text.byteOrderMark ∧
      { nestedImporter with
          tree := cardTree (Text.byteOrderMark :: Charset.widenLineEnds cardText) }.content none
            cardPath =
        { nestedImporter with tree := cardTree cardText }.content none cardPath ∧
      { nestedImporter with
          tree := cardTree (Text.byteOrderMark :: Charset.widenLineEnds cardText) }.content none
            cardPath =
        .ok ⟨cardPath, "a \x7b\n  b: c;\n\x7d\n".toList⟩ := by
  have hname : Attributes.HasStylesheetExtension cardPath.name := by decide +kernel
  have hreturn : '\r' ∉ cardText := by decide +kernel
  have hmark : cardText.head? ≠ some Text.byteOrderMark := by decide +kernel
  obtain ⟨hsame, hfinished⟩ := content_writings nestedImporter none hname hreturn hmark
    (by simp [Charset.writings]) (by simp [Charset.writings])
    (content?_cardTree (Text.byteOrderMark :: Charset.widenLineEnds cardText))
    (content?_cardTree cardText)
  exact ⟨hname, hreturn, hmark, hsame, hfinished.trans finished_cardText⟩

end Importer

end Stylesheets
