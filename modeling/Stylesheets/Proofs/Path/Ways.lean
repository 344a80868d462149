import Stylesheets.Proofs.Path.Normal
import Stylesheets.Proofs.Path.Spelling

/-!
# Ways between paths

The way from one path to another climbs to where the two part and descends from
there.  Going it from the first path ends at the second, whichever of them lies
below the other.
-/

namespace Stylesheets.Path

theorem exists_wayBetween_eq (base path : List Text) :
    ∃ shared climbed descended, base = shared ++ climbed ∧ path = shared ++ descended ∧
      (∀ common, common <+: base → common <+: path → common <+: shared) ∧
      wayBetween base path = List.replicate climbed.length doubleDot ++ descended := by
  induction base generalizing path with
  | nil =>
      exact ⟨[], [], path, rfl, rfl, fun _ hbase _ => hbase, by simp [wayBetween, commonLength]⟩
  | cons a base ih =>
      cases path with
      | nil =>
          exact ⟨[], a :: base, [], rfl, rfl, fun _ _ hpath => hpath,
            by simp [wayBetween, commonLength]⟩
      | cons b path =>
          by_cases hsame : a = b
          · subst hsame
            obtain ⟨shared, climbed, descended, hbase, hpath, hlongest, hway⟩ := ih path
            refine ⟨a :: shared, climbed, descended, by simp [hbase], by simp [hpath], ?_, ?_⟩
            · intro common hcommonBase hcommonPath
              cases common with
              | nil => exact List.nil_prefix
              | cons c common =>
                  rw [List.cons_prefix_cons] at hcommonBase hcommonPath ⊢
                  exact ⟨hcommonBase.1, hlongest common hcommonBase.2 hcommonPath.2⟩
            · rw [← hway]
              simp [wayBetween, commonLength]
          · refine ⟨[], a :: base, b :: path, rfl, rfl, ?_,
              by simp [wayBetween, commonLength, hsame]⟩
            intro common hcommonBase hcommonPath
            cases common with
            | nil => exact List.nil_prefix
            | cons c common =>
                rw [List.cons_prefix_cons] at hcommonBase hcommonPath
                exact absurd (hcommonBase.1.symm.trans hcommonPath.1) hsame

theorem foldl_push_wayBetween {base path : List Text} (hbase : doubleDot ∉ base)
    (hpath : doubleDot ∉ path) :
    (wayBetween base path).foldl (push true) base.reverse = path.reverse := by
  obtain ⟨shared, climbed, descended, rfl, rfl, -, hway⟩ := exists_wayBetween_eq base path
  have hclimbed : doubleDot ∉ (shared ++ climbed).reverse := by
    rwa [List.mem_reverse]
  have hdescended : doubleDot ∉ descended := fun hdots =>
    hpath (List.mem_append_right shared hdots)
  rw [hway, List.foldl_append, foldl_push_replicate hclimbed, List.reverse_append,
    List.drop_left' List.length_reverse, foldl_push_of_not_mem hdescended, List.reverse_append]

theorem mem_wayBetween {base path : List Text} {segment : Text}
    (h : segment ∈ wayBetween base path) : segment = doubleDot ∨ segment ∈ path := by
  rcases List.mem_append.mp h with hclimb | hdescent
  · exact .inl (List.eq_of_mem_replicate hclimb)
  · exact .inr (List.mem_of_mem_drop hdescent)

theorem wayBetween_append (base position : List Text) :
    wayBetween base (base ++ position) = position := by
  induction base with
  | nil => simp [wayBetween, commonLength]
  | cons segment base ih => simpa [wayBetween, commonLength] using ih

theorem prefix_of_not_mem_wayBetween {base path : List Text}
    (h : doubleDot ∉ wayBetween base path) : base <+: path := by
  obtain ⟨shared, climbed, descended, rfl, rfl, -, hway⟩ := exists_wayBetween_eq base path
  have hclimbed : climbed = [] := by
    rw [hway, List.mem_append, not_or, List.mem_replicate] at h
    simpa using h.1
  simp [hclimbed]

theorem wayBetween_eq_iff {base path position : List Text} (h : doubleDot ∉ position) :
    wayBetween base path = position ↔ path = base ++ position := by
  constructor
  · rintro rfl
    obtain ⟨position, rfl⟩ := prefix_of_not_mem_wayBetween h
    rw [wayBetween_append]
  · rintro rfl
    exact wayBetween_append base position

/-! ## The written way -/

theorem ofText_wayText {way : List Text}
    (h : ∀ segment ∈ way, isStep segment = true ∧ '/' ∉ segment) :
    ofText (wayText way) = ⟨.relative, way⟩ := by
  cases way with
  | nil => rfl
  | cons first rest =>
      have hslashes := takeWhile_joinSegments h
      have hsteps := steps_joinSegments h
      simp [wayText, ofText, hslashes, hsteps, Anchor.ofSlashes]

theorem wayText_inj {way other : List Text}
    (h : ∀ segment ∈ way, isStep segment = true ∧ '/' ∉ segment)
    (hother : ∀ segment ∈ other, isStep segment = true ∧ '/' ∉ segment) :
    wayText way = wayText other ↔ way = other := by
  refine ⟨fun htext => ?_, congrArg wayText⟩
  have hread := ofText_wayText h
  rw [htext, ofText_wayText hother] at hread
  exact (congrArg segments hread).symm

theorem wayText_eq_dot_iff {way : List Text}
    (h : ∀ segment ∈ way, isStep segment = true ∧ '/' ∉ segment) : wayText way = dot ↔ way = [] :=
  wayText_inj h (List.forall_mem_nil _)

theorem wayText_of_ne_nil {way : List Text} (h : way ≠ []) : wayText way = joinSegments way :=
  if_neg (by simpa using h)

theorem relativeTo_eq_wayText (current : Path) {path base : Path} (hpath : path.isAbsolute = true)
    (hbase : base.isAbsolute = true) :
    relativeTo current path base =
      wayText (wayBetween base.normalize.segments path.normalize.segments) := by
  rw [relativeTo, absolute, absolute, append_of_isAbsolute hpath, append_of_isAbsolute hbase]

theorem forall_mem_wayBetween (base : Path) {path : Path} (h : path.IsProper) :
    ∀ segment ∈ wayBetween base.normalize.segments path.normalize.segments,
      isStep segment = true ∧ '/' ∉ segment := by
  intro segment hsegment
  rcases mem_wayBetween hsegment with rfl | hmem
  · decide
  · exact h.normalize segment hmem

theorem ofText_relativeTo (current : Path) {path base : Path} (hpath : path.isAbsolute = true)
    (hbase : base.isAbsolute = true) (hproper : path.IsProper) :
    ofText (relativeTo current path base) =
      ⟨.relative, wayBetween base.normalize.segments path.normalize.segments⟩ := by
  rw [relativeTo_eq_wayText current hpath hbase]
  exact ofText_wayText (forall_mem_wayBetween base hproper)

theorem isAbsolute_relativeTo (current : Path) {path base : Path} (hpath : path.isAbsolute = true)
    (hbase : base.isAbsolute = true) (hproper : path.IsProper) :
    Spelling.isAbsolute (relativeTo current path base) = false := by
  rw [← isAbsolute_ofText, ofText_relativeTo current hpath hbase hproper]
  rfl

theorem normalize_append_relativeTo (current : Path) {path base : Path}
    (hpath : path.isAbsolute = true) (hbase : base.isAbsolute = true) (hproper : path.IsProper)
    (hanchor : base.anchor = path.anchor) :
    (base.append (ofText (relativeTo current path base))).normalize = path.normalize := by
  rw [ofText_relativeTo current hpath hbase hproper, normalize_append hbase rfl,
    foldl_push_wayBetween (not_mem_normalize hbase) (not_mem_normalize hpath),
    List.reverse_reverse]
  simp [normalize, hanchor]

theorem relativeTo_eq_dot_iff (current : Path) {path base : Path} (hpath : path.isAbsolute = true)
    (hbase : base.isAbsolute = true) (hproper : path.IsProper)
    (hanchor : base.anchor = path.anchor) :
    relativeTo current path base = dot ↔ path.normalize = base.normalize := by
  rw [relativeTo_eq_wayText current hpath hbase,
    wayText_eq_dot_iff (forall_mem_wayBetween base hproper),
    wayBetween_eq_iff List.not_mem_nil, List.append_nil]
  constructor
  · intro hsegments
    simp only [normalize, Path.mk.injEq]
    exact ⟨hanchor.symm, hsegments⟩
  · intro hsame
    rw [hsame]

/--
The written way from a base to a path, both absolute, leads from the base to
the path when it is joined to it.  It is a single dot exactly between paths of
one normal form; otherwise it climbs from the base to the longest beginning
that the two normal forms share, and then goes down to the path.
-/
theorem join_relativeTo (current : Path) {path base : Text}
    (hbase : (ofText base).isAbsolute = true)
    (hanchor : (ofText base).anchor = (ofText path).anchor) :
    (ofText (Spelling.join base [relativeTo current (ofText path) (ofText base)])).normalize =
        (ofText path).normalize ∧
      (relativeTo current (ofText path) (ofText base) = dot ↔
        (ofText path).normalize = (ofText base).normalize) ∧
      ∃ shared climbed descended,
        (ofText base).normalize.segments = shared ++ climbed ∧
        (ofText path).normalize.segments = shared ++ descended ∧
        (∀ common, common <+: (ofText base).normalize.segments →
          common <+: (ofText path).normalize.segments → common <+: shared) ∧
        ((ofText path).normalize ≠ (ofText base).normalize →
          relativeTo current (ofText path) (ofText base) =
            joinSegments (List.replicate climbed.length doubleDot ++ descended)) := by
  have hpath : (ofText path).isAbsolute = true := by rwa [isAbsolute, ← hanchor]
  have hproper := isProper_ofText path
  have hdot := relativeTo_eq_dot_iff current hpath hbase hproper hanchor
  obtain ⟨shared, climbed, descended, hclimbed, hdescended, hlongest, hway⟩ :=
    exists_wayBetween_eq (ofText base).normalize.segments (ofText path).normalize.segments
  refine ⟨?_, hdot, shared, climbed, descended, hclimbed, hdescended, hlongest, fun hother => ?_⟩
  · rw [ofText_join _ (isAbsolute_relativeTo current hpath hbase hproper)]
    exact normalize_append_relativeTo current hpath hbase hproper hanchor
  · rw [relativeTo_eq_wayText current hpath hbase, hway] at hdot ⊢
    apply wayText_of_ne_nil
    intro hempty
    exact hother (hdot.mp (by rw [hempty]; rfl))

theorem join_relativeTo_aside :
    (ofText "/r/./x//y".toList).isAbsolute = true ∧
      relativeTo ⟨.root, []⟩ (ofText "/r/a/../b//c.scss".toList) (ofText "/r/./x//y".toList) =
        "../../b/c.scss".toList ∧
      (ofText (Spelling.join "/r/./x//y".toList ["../../b/c.scss".toList])).normalize =
        ofText "/r/b/c.scss".toList := by
  have hbase : (ofText "/r/./x//y".toList).isAbsolute = true := by decide
  have hway : relativeTo ⟨.root, []⟩ (ofText "/r/a/../b//c.scss".toList)
      (ofText "/r/./x//y".toList) = "../../b/c.scss".toList := by
    cbv
  have hjoin := (@join_relativeTo ⟨.root, []⟩ "/r/a/../b//c.scss".toList _ hbase (by decide)).1
  rw [hway] at hjoin
  exact ⟨hbase, hway, hjoin.trans (by cbv)⟩

end Stylesheets.Path
