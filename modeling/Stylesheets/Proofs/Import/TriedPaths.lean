import Stylesheets.Asset.Catalog
import Stylesheets.Proofs.Import.Beside

/-!
# Where a tried path lies

Prefixes and extensions change nothing but the last segment of a path.  So a
path that is tried for a file lies in the search path of its candidate, below a
root, and has double dots on its way exactly if this has.
-/

namespace Stylesheets

namespace Catalog

variable {catalog : Catalog} {candidate directory name : Text} {path : Path}

theorem exists_of_mem_tryPaths (h : path ∈ catalog.tryPaths candidate) :
    ∃ above, (above ∈ catalog.settings.roots ∨
        above = ⟨.root, []⟩ ∧ Spelling.isAbsolute candidate = true) ∧
      (path = above.append (.ofText candidate) ∨
        ∃ extension ∈ catalog.settings.extensions,
          path = .ofText ((above.append (.ofText candidate)).text ++ extension.display)) := by
  obtain ⟨base, hbase, hpath⟩ := List.mem_flatMap.mp h
  obtain ⟨above, habove, rfl⟩ : ∃ above, (above ∈ catalog.settings.roots ∨
      above = ⟨.root, []⟩ ∧ Spelling.isAbsolute candidate = true) ∧
        base = above.append (.ofText candidate) := by
    split at hbase
    · next habsolute =>
        refine ⟨⟨.root, []⟩, .inr ⟨rfl, ?_⟩, ?_⟩
        · rw [← Path.isAbsolute_ofText, habsolute]
        · rw [List.mem_singleton.mp hbase, Path.append_of_isAbsolute habsolute]
    · obtain ⟨root, hroot, rfl⟩ := List.mem_map.mp hbase
      exact ⟨root, .inl hroot, rfl⟩
  refine ⟨above, habove, ?_⟩
  rcases List.mem_cons.mp hpath with rfl | hextended
  · exact .inl rfl
  · obtain ⟨extension, hextension, rfl⟩ := List.mem_map.mp hextended
    exact .inr ⟨extension, hextension, rfl⟩

theorem isProper_of_mem_tryPaths (hroots : ∀ root ∈ catalog.settings.roots, root.IsProper)
    (h : path ∈ catalog.tryPaths candidate) : path.IsProper := by
  obtain ⟨above, habove, rfl | ⟨extension, -, rfl⟩⟩ := exists_of_mem_tryPaths h
  · rcases habove with hroot | ⟨rfl, -⟩
    · exact (hroots above hroot).append (Path.isProper_ofText candidate)
    · exact Path.IsProper.append (List.forall_mem_nil _) (Path.isProper_ofText candidate)
  · exact Path.isProper_ofText _

theorem dropLast_of_mem_tryPaths (hroots : ∀ root ∈ catalog.settings.roots, root.IsProper)
    (hextensions : ∀ extension ∈ catalog.settings.extensions, '/' ∉ extension.display)
    (hname : '/' ∉ name) (h : path ∈ catalog.tryPaths (Spelling.join directory [name])) :
    ∃ above, (above ∈ catalog.settings.roots ∨
        above = ⟨.root, []⟩ ∧ Spelling.isAbsolute directory = true) ∧
      path.segments.dropLast <+: (above.append (.ofText directory)).segments ∧
      (Path.isStep name = true →
        path.segments.dropLast = (above.append (.ofText directory)).segments) := by
  obtain ⟨above, habove, hpath⟩ := exists_of_mem_tryPaths h
  rw [Path.isAbsolute_join_name directory (Spelling.isAbsolute_of_slash_not_mem hname)] at habove
  refine ⟨above, habove, ?_⟩
  have habsolute : above.isAbsolute = true := by
    rcases habove with hroot | ⟨rfl, -⟩
    · exact catalog.settings.roots_isAbsolute above hroot
    · rfl
  have hproper : above.IsProper := by
    rcases habove with hroot | ⟨rfl, -⟩
    · exact hroots above hroot
    · exact List.forall_mem_nil _
  have hrelative := Spelling.isAbsolute_of_slash_not_mem hname
  rw [Path.ofText_join _ hrelative, ← Path.append_assoc] at hpath
  have hinside := Path.isAbsolute_append habsolute (.ofText directory)
  have hinsideProper := hproper.append (Path.isProper_ofText directory)
  generalize above.append (.ofText directory) = inside at hpath hinside hinsideProper ⊢
  have hlast : path.segments.dropLast = (inside.segments ++ Path.steps name).dropLast := by
    have hbase : (inside.append (.ofText name)).segments = inside.segments ++ Path.steps name := by
      rw [Path.append_ofText inside hrelative]
    rw [← hbase]
    rcases hpath with rfl | ⟨extension, hextension, rfl⟩
    · rfl
    · exact Path.dropLast_segments_ofText_append (Path.isAbsolute_append hinside _)
        (hinsideProper.append (Path.isProper_ofText name)) (hextensions extension hextension)
  rw [hlast, Path.steps_of_slash_not_mem hname]
  cases hstep : Path.isStep name with
  | true => simp
  | false => simpa using List.dropLast_prefix inside.segments

end Catalog

namespace Scope

variable {scope : Scope} {directory : Text} {parent : Option Text}

/-- The importing file lies below the root that is taken for it. -/
def IsBelowRoot (scope : Scope) (file : Text) : Prop :=
  (scope.holdingRoot (scope.parentDirectory file)).normalize.segments <+:
    (scope.parentDirectory file).normalize.segments

theorem not_mem_steps_of_mem_searchPaths
    (hroots : ∀ root ∈ scope.rootPath :: scope.roots, root.IsNormal)
    (hdirectory : Path.doubleDot ∉ Path.steps directory)
    (hbelow : ∀ file, parent = some file → scope.IsBelowRoot file) {search : Text}
    (hsearch : search ∈ scope.searchPaths directory parent) :
    Path.doubleDot ∉ Path.steps search := by
  cases parent with
  | none => rwa [List.mem_singleton.mp hsearch]
  | some file =>
      have hrootPath := hroots scope.rootPath List.mem_cons_self
      have hroot := hroots _ (Path.longestRoot_mem (scope.parentDirectory file) scope.roots
        scope.rootPath)
      have hbeside : (scope.parentDirectory file).isAbsolute = true :=
        Path.isAbsolute_append hrootPath.isAbsolute (.ofText file)
      simp only [searchPaths] at hsearch
      split at hsearch
      · rwa [List.mem_singleton.mp hsearch]
      · next hother =>
          rw [Bool.or_eq_true, not_or, Bool.not_eq_true] at hother
          rcases List.mem_cons.mp hsearch with rfl | hplain
          · have hway : Path.steps (Path.relativeTo scope.current (scope.parentDirectory file)
                (scope.holdingRoot (scope.parentDirectory file))) =
                Path.wayBetween (scope.holdingRoot (scope.parentDirectory file)).normalize.segments
                  (scope.parentDirectory file).normalize.segments :=
              congrArg Path.segments (Path.ofText_relativeTo scope.current hbeside
                hroot.isAbsolute (isProper_parentDirectory hrootPath.isProper file))
            obtain ⟨position, hposition⟩ := hbelow file rfl
            rw [Path.steps_join _ hother.1, hway, ← hposition, Path.wayBetween_append,
              List.mem_append, not_or]
            refine ⟨fun hmem => Path.not_mem_normalize hbeside ?_, hdirectory⟩
            rw [← hposition]
            exact List.mem_append_right _ hmem
          · rwa [List.mem_singleton.mp hplain]

end Scope

end Stylesheets
