import Stylesheets.Proofs.Path.Spelling

/-!
# Directory and file name

A spelling is taken apart at its last slashes.  The file name is empty only if
there is nothing but slashes, and the directory ends in no slash unless it is
the root.  Joined again, the two spell the same path; only the second of two
slashes before a single name is lost, as the directory is the root there.
-/

namespace Stylesheets

namespace Spelling

theorem fileName_eq_nil_iff {spelling : Text} :
    fileName spelling = [] ↔ ∀ c ∈ spelling, c = '/' := by
  have hnil : fileName spelling = [] ↔ spelling.reverse.dropWhile isSlash = [] := by
    rw [fileName, List.reverse_eq_nil_iff, List.takeWhile_eq_nil_iff]
    cases hrest : spelling.reverse.dropWhile isSlash with
    | nil => simp
    | cons c rest =>
        have hother := List.head?_dropWhile_not isSlash spelling.reverse
        rw [hrest] at hother
        simpa using hother
  rw [hnil, List.dropWhile_eq_nil_iff]
  simp [isSlash]

theorem not_suffix_leading (spelling : Text) : ¬ ['/'] <:+ leading spelling := by
  rw [leading, ← List.reverse_prefix, List.reverse_reverse, List.reverse_singleton]
  rintro ⟨rest, hrest⟩
  have hother := List.head?_dropWhile_not isSlash
    ((spelling.reverse.dropWhile isSlash).dropWhile fun c => !isSlash c)
  rw [← hrest] at hother
  simp [isSlash] at hother

theorem directory_of_leading_ne_nil {spelling : Text} (h : leading spelling ≠ []) :
    directory spelling = leading spelling := by
  simp [directory, h]

theorem directory_of_leading_eq_nil {spelling : Text} (h : leading spelling = []) :
    directory spelling = if isAbsolute spelling = true then ['/'] else Path.dot := by
  simp [directory, h, isAbsolute]

/-- What stands before a file name, and the directory that it stands for. -/
inductive StandsFor : Text → Text → Prop
  | nothing : StandsFor [] Path.dot
  | slashes {before : Text} (hnonempty : before ≠ []) (hslashes : ∀ c ∈ before, c = '/') :
      StandsFor before ['/']
  | directory {directory slashes : Text} (hdirectory : directory ≠ [])
      (hend : ¬ ['/'] <:+ directory) (hnonempty : slashes ≠ [])
      (hslashes : ∀ c ∈ slashes, c = '/') :
      StandsFor (directory ++ slashes) directory

theorem StandsFor.directory_cases {before directory : Text} (h : StandsFor before directory) :
    directory = Path.dot ∨ directory = ['/'] ∨ directory ≠ [] ∧ ¬ ['/'] <:+ directory := by
  cases h with
  | nothing => exact .inl rfl
  | slashes => exact .inr (.inl rfl)
  | directory hdirectory hend => exact .inr (.inr ⟨hdirectory, hend⟩)

theorem exists_standsFor (spelling : Text) :
    ∃ before after, spelling = before ++ fileName spelling ++ after ∧
      StandsFor before (directory spelling) ∧ ∀ c ∈ after, c = '/' := by
  obtain ⟨between, after, hspelling, hbetween, hafter, hleading⟩ := spelling_eq_append spelling
  by_cases hempty : leading spelling = []
  · rw [directory_of_leading_eq_nil hempty]
    rw [hempty, List.nil_append] at hspelling
    by_cases hslashes : ∀ c ∈ spelling, c = '/'
    · -- There is no file name, and all slashes count to what stands before it.
      have hname := fileName_eq_nil_iff.mpr hslashes
      refine ⟨spelling, [], by simp [hname], ?_, List.forall_mem_nil _⟩
      cases spelling with
      | nil => exact .nothing
      | cons c rest =>
          obtain rfl := hslashes c List.mem_cons_self
          exact .slashes (List.cons_ne_nil _ _) hslashes
    · refine ⟨between, after, hspelling, ?_, hafter⟩
      cases between with
      | nil =>
          have hrelative : isAbsolute spelling = false := by
            have hnoSlash := not_mem_fileName spelling
            rw [hspelling]
            cases hname : fileName spelling with
            | nil => exact absurd (fileName_eq_nil_iff.mp hname) hslashes
            | cons c rest =>
                rw [hname, List.mem_cons, not_or] at hnoSlash
                simpa [isAbsolute, List.isPrefixOf] using hnoSlash.1
          rw [hrelative]
          exact .nothing
      | cons c rest =>
          obtain rfl := hbetween c List.mem_cons_self
          have habsolute : isAbsolute spelling = true := by
            rw [hspelling]
            simp [isAbsolute]
          rw [if_pos habsolute]
          exact .slashes (List.cons_ne_nil _ _) hbetween
  · rw [directory_of_leading_ne_nil hempty]
    exact ⟨leading spelling ++ between, after, hspelling,
      .directory hempty (not_suffix_leading spelling) (fun hnone => hempty (hleading hnone))
        hbetween, hafter⟩

end Spelling

namespace Path

theorem ofSlashes_eq_root_iff {count : Nat} (h : count ≠ 0) :
    Anchor.ofSlashes count = .root ↔ count ≠ 2 := by
  unfold Anchor.ofSlashes
  grind

theorem length_takeWhile_slash_ne_zero {text : Text} (h : Spelling.isAbsolute text = true) :
    (text.takeWhile Spelling.isSlash).length ≠ 0 := by
  cases text with
  | nil => cases h
  | cons c rest =>
      obtain rfl : '/' = c := by simpa [Spelling.isAbsolute, List.isPrefixOf] using h
      simp [Spelling.isSlash]

theorem anchor_ofText_directory_iff (spelling : Text) :
    (ofText (Spelling.directory spelling)).anchor = (ofText spelling).anchor ↔
      ((spelling.takeWhile Spelling.isSlash).length = 2 → Spelling.directory spelling ≠ ['/']) := by
  obtain ⟨before, after, hspelling, hbefore, -⟩ := Spelling.exists_standsFor spelling
  have hanchored := Spelling.isAbsolute_directory spelling
  generalize Spelling.directory spelling = directory at hbefore hanchored
  cases hbefore with
  | nothing =>
      rw [ofText_of_relative hanchored.symm]
      simp [ofText, Anchor.ofSlashes, dot]
  | slashes hnonempty hslashes =>
      have hroot : (ofText spelling).anchor = (ofText ['/']).anchor ↔
          (spelling.takeWhile Spelling.isSlash).length ≠ 2 :=
        ofSlashes_eq_root_iff (length_takeWhile_slash_ne_zero hanchored.symm)
      rw [eq_comm, hroot]
      simp
  | @directory _ slashes hdirectory hend hnonempty hslashes =>
      obtain ⟨c, rest, rfl⟩ := List.exists_cons_of_ne_nil hnonempty
      obtain rfl := hslashes c List.mem_cons_self
      have htake : spelling.takeWhile (· == '/') = directory.takeWhile (· == '/') := by
        rw [hspelling, List.append_assoc, List.append_assoc, List.cons_append]
        exact takeWhile_slash_append_slash hdirectory hend _
      have hnotRoot : directory ≠ ['/'] := by
        rintro rfl
        exact hend (List.suffix_refl _)
      simp [ofText, htake, hnotRoot]

end Path

namespace Spelling

/--
The file name holds no slash and is empty exactly if the spelling has nothing
but slashes; the directory is a single dot, the root, or a text that does not
end in a slash.  What stands for the directory, the file name and some slashes
make up the spelling.  Joined again, both spell the same path as before, unless
the spelling begins with exactly two slashes and its directory is the root.
-/
theorem join_directory_fileName (spelling : Text) :
    '/' ∉ fileName spelling ∧
      (fileName spelling = [] ↔ ∀ c ∈ spelling, c = '/') ∧
      (directory spelling = Path.dot ∨ directory spelling = ['/'] ∨
        directory spelling ≠ [] ∧ ¬ ['/'] <:+ directory spelling) ∧
      (∃ before after, spelling = before ++ fileName spelling ++ after ∧
        StandsFor before (directory spelling) ∧ ∀ c ∈ after, c = '/') ∧
      (Path.ofText (join (directory spelling) [fileName spelling]) = Path.ofText spelling ↔
        ((spelling.takeWhile isSlash).length = 2 → directory spelling ≠ ['/'])) := by
  have hname := not_mem_fileName spelling
  obtain ⟨before, after, hspelling, hbefore, hafter⟩ := exists_standsFor spelling
  refine ⟨hname, fileName_eq_nil_iff, hbefore.directory_cases,
    ⟨before, after, hspelling, hbefore, hafter⟩, ?_⟩
  have hjoin : Path.ofText (join (directory spelling) [fileName spelling]) =
      ⟨(Path.ofText (directory spelling)).anchor, Path.steps spelling⟩ := by
    have hrelative := isAbsolute_of_slash_not_mem hname
    rw [Path.ofText_join _ hrelative, Path.append_ofText _ hrelative,
      ← Path.steps_directory_append spelling]
    rfl
  rw [← Path.anchor_ofText_directory_iff, hjoin]
  constructor
  · intro hsame
    rw [← hsame]
  · intro hanchor
    rw [hanchor]
    rfl

example :
    join (directory "//a".toList) [fileName "//a".toList] = "/a".toList ∧
      join (directory "//a/b".toList) [fileName "//a/b".toList] = "//a/b".toList := by
  decide

end Spelling

end Stylesheets
