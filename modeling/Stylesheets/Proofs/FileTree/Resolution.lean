import Mathlib.Data.List.Perm.Subperm
import Mathlib.Data.Nat.Find
import Stylesheets.Proofs.FileTree.Links
import Stylesheets.Proofs.FileTree.RealPath

/-!
# Resolving links

Resolving the links on a path comes to the address that its segments lead to:
a link that is being followed is not met again on the way to where it leads, so
the search for loops stops nothing else, and no more links can be open at once
than the tree has entries.  A real path therefore is the real path of itself.
-/

namespace Stylesheets.FileTree

variable {tree : FileTree} {known : KnownLinks} {opened : List Address} {depth : Nat}
  {address found : Address} {segments : List Text}

/-- Known links lead where they are said to lead. -/
def KnownLinks.AreRight (tree : FileTree) (known : KnownLinks) : Prop :=
  ∀ link found, known.lookup link = some (some found) → tree.Follows link found

theorem KnownLinks.AreRight.cons_none (h : known.AreRight tree) (link : Address) :
    KnownLinks.AreRight tree ((link, none) :: known) := by
  intro other found hlookup
  rw [List.lookup_cons] at hlookup
  split at hlookup
  · cases hlookup
  · exact h other found hlookup

theorem KnownLinks.AreRight.cons_some {link : Address} (h : known.AreRight tree)
    (hfollows : tree.Follows link found) :
    KnownLinks.AreRight tree ((link, some found) :: known) := by
  intro other held hlookup
  rw [List.lookup_cons] at hlookup
  split at hlookup
  · next hsame =>
      obtain rfl := eq_of_beq hsame
      rwa [← Option.some.inj (Option.some.inj hlookup)]
  · exact h other held hlookup

/-- What is known while some links are being followed, one inside the other. -/
structure Knows (tree : FileTree) (known : KnownLinks) (opened : List Address) : Prop where
  follows : known.AreRight tree
  open_iff : ∀ link, known.lookup link = some none ↔ link ∈ opened
  nodup : opened.Nodup
  listed : opened ⊆ tree.entries.map Prod.fst

/-- No open link is among those that can be followed with fewer links inside each other. -/
def Opens (tree : FileTree) (depth : Nat) (opened : List Address) : Prop :=
  ∀ link ∈ opened, ∀ less < depth, ∀ found, ¬ tree.FollowsWithin less link found

theorem knows_nil (tree : FileTree) : tree.Knows [] [] where
  follows _ _ hlookup := by cases hlookup
  open_iff _ := by simp
  nodup := List.nodup_nil
  listed := List.nil_subset _

theorem Knows.length_le (h : tree.Knows known opened) : opened.length ≤ tree.entries.length := by
  have hle := (List.subperm_of_subset h.nodup h.listed).length_le
  rwa [List.length_map] at hle

theorem Knows.open {link : Address} {target : Text} (h : tree.Knows known opened)
    (hlink : tree.get? link = some (.link target)) (hnew : known.lookup link = none) :
    tree.Knows ((link, none) :: known) (link :: opened) where
  follows := h.follows.cons_none link
  open_iff other := by
    rw [List.lookup_cons, List.mem_cons, ← h.open_iff]
    by_cases hsame : other = link
    · simp [hsame]
    · simp [hsame, beq_eq_false_iff_ne.mpr hsame]
  nodup := by
    refine List.nodup_cons.mpr ⟨fun hmem => ?_, h.nodup⟩
    cases hnew.symm.trans ((h.open_iff link).mpr hmem)
  listed := by
    refine List.cons_subset.mpr ⟨?_, h.listed⟩
    have hroot : link ≠ [] := by
      rintro rfl
      cases hlink
    exact (Listing.isSome_get?_iff tree.wellFormed hroot).mp (Option.isSome_of_eq_some hlink)

theorem Knows.close {link : Address} (h : tree.Knows known (link :: opened))
    (hfollows : tree.Follows link found) : tree.Knows ((link, some found) :: known) opened where
  follows := h.follows.cons_some hfollows
  open_iff other := by
    rw [List.lookup_cons]
    by_cases hsame : other = link
    · simpa [hsame] using (List.nodup_cons.mp h.nodup).1
    · simp [beq_eq_false_iff_ne.mpr hsame, h.open_iff, hsame]
  nodup := (List.nodup_cons.mp h.nodup).2
  listed := (List.cons_subset.mp h.listed).2

theorem Opens.exists_least {link : Address} (h : tree.Opens (depth + 1) opened)
    (hfollows : tree.FollowsWithin depth link found) :
    ∃ least, tree.FollowsWithin least link found ∧ tree.Opens least (link :: opened) := by
  classical
  have hsome : ∃ least, tree.FollowsWithin least link found := ⟨depth, hfollows⟩
  refine ⟨Nat.find hsome, Nat.find_spec hsome, ?_⟩
  intro other hother less hless held hheld
  rcases List.mem_cons.mp hother with rfl | hother
  · obtain rfl := Follows.unique ⟨less, hheld⟩ ⟨depth, hfollows⟩
    exact Nat.find_min hsome hless hheld
  · have hle : Nat.find hsome ≤ depth := Nat.find_min' hsome hfollows
    exact h other hother less (by omega) held hheld

/-! ## Resolving -/

/-- Segments that lead somewhere are resolved to where they lead. -/
theorem resolveLinks_of_leadsWithin (fuel : Nat) (known : KnownLinks) (address : Address)
    (segments : List Text) : ∀ depth opened found, tree.Knows known opened →
      tree.Opens depth opened → tree.entries.length < opened.length + fuel →
        tree.LeadsWithin depth address segments found →
          ∃ learned, tree.resolveLinks fuel known address segments = .complete found learned ∧
            tree.Knows learned opened := by
  -- What a link leads to is resolved with its own least depth, so the depth varies with the calls.
  fun_induction resolveLinks tree fuel known address segments with
  | case1 fuel known address =>
      intro depth opened found hknows hopens hfuel h
      cases h
      exact ⟨known, rfl, hknows⟩
  | case2 fuel known address segment rest hstep ih =>
      intro depth opened found hknows hopens hfuel h
      exact ih _ _ _ hknows hopens hfuel (h.of_skip (by simpa using hstep))
  | case3 fuel known address rest hstep ih =>
      intro depth opened found hknows hopens hfuel h
      exact ih _ _ _ hknows hopens hfuel h.of_up
  | case4 fuel known address segment rest hstep hdots next target hlink held hheld ih =>
      intro depth opened found hknows hopens hfuel h
      obtain ⟨less, inside, rfl, hfollows, hrest⟩ := h.of_link (by simpa using hstep) hdots hlink
      obtain rfl := Follows.unique ⟨less, hfollows⟩ (hknows.follows next held hheld)
      exact ih _ _ _ hknows hopens hfuel hrest
  | case5 fuel known address segment rest hstep hdots next target hlink hopen =>
      intro depth opened found hknows hopens hfuel h
      obtain ⟨less, inside, rfl, hfollows, -⟩ := h.of_link (by simpa using hstep) hdots hlink
      have hmem : next ∈ opened := (hknows.open_iff next).mp hopen
      exact absurd hfollows (hopens next hmem less (Nat.lt_succ_self less) inside)
  | case6 known address segment rest hstep hdots next target hlink hnew =>
      intro depth opened found hknows hopens hfuel h
      have hle := hknows.length_le
      omega
  | case7 known address segment rest hstep hdots next target hlink hnew left start looping hloop
      ih =>
      intro depth opened found hknows hopens hfuel h
      obtain ⟨less, inside, rfl, hfollows, -⟩ := h.of_link (by simpa using hstep) hdots hlink
      obtain ⟨least, hfollowed, hleast⟩ := hopens.exists_least hfollows
      obtain ⟨learned, hcomplete, -⟩ := ih _ _ _ (hknows.open hlink hnew) hleast
        (by simp only [List.length_cons]; omega) (hfollowed.leadsWithin hlink)
      cases hloop.symm.trans hcomplete
  | case8 known address segment rest hstep hdots next target hlink hnew left start held learned
      hheld ih ihRest =>
      intro depth opened found hknows hopens hfuel h
      obtain ⟨less, inside, rfl, hfollows, hrest⟩ := h.of_link (by simpa using hstep) hdots hlink
      obtain ⟨least, hfollowed, hleast⟩ := hopens.exists_least hfollows
      obtain ⟨known', hcomplete, hknows'⟩ := ih _ _ _ (hknows.open hlink hnew) hleast
        (by simp only [List.length_cons]; omega) (hfollowed.leadsWithin hlink)
      obtain ⟨rfl, rfl⟩ := Resolution.complete.inj (hheld.symm.trans hcomplete)
      exact ihRest _ _ _ (hknows'.close ⟨less, hfollows⟩) hopens hfuel hrest
  | case9 fuel known address segment rest hstep hdots next hother ih =>
      intro depth opened found hknows hopens hfuel h
      exact ih _ _ _ hknows hopens hfuel (h.of_down (by simpa using hstep) hdots hother)

theorem leads_of_resolveLinks (fuel : Nat) (known : KnownLinks) (address : Address)
    (segments : List Text) : ∀ found learned, known.AreRight tree →
      tree.resolveLinks fuel known address segments = .complete found learned →
        tree.Leads address segments found ∧ learned.AreRight tree := by
  fun_induction resolveLinks tree fuel known address segments with
  | case1 fuel known address =>
      intro found learned hknown h
      obtain ⟨rfl, rfl⟩ := Resolution.complete.inj h
      exact ⟨⟨0, .done⟩, hknown⟩
  | case2 fuel known address segment rest hstep ih =>
      intro found learned hknown h
      obtain ⟨⟨depth, hrest⟩, hlearned⟩ := ih _ _ hknown h
      exact ⟨⟨depth, .skip (by simpa using hstep) hrest⟩, hlearned⟩
  | case3 fuel known address rest hstep ih =>
      intro found learned hknown h
      obtain ⟨⟨depth, hrest⟩, hlearned⟩ := ih _ _ hknown h
      exact ⟨⟨depth, .up hrest⟩, hlearned⟩
  | case4 fuel known address segment rest hstep hdots next target hlink held hheld ih =>
      intro found learned hknown h
      obtain ⟨hrest, hlearned⟩ := ih _ _ hknown h
      exact ⟨.cons_link (by simpa using hstep) hdots (hknown next held hheld) hrest, hlearned⟩
  | case5 =>
      intro found learned hknown h
      cases h
  | case6 =>
      intro found learned hknown h
      cases h
  | case7 =>
      intro found learned hknown h
      cases h
  | case8 known address segment rest hstep hdots next target hlink hnew left start held inner
      hheld ih ihRest =>
      intro found learned hknown h
      obtain ⟨⟨depth, htarget⟩, hinner⟩ := ih _ _ (hknown.cons_none next) hheld
      have hfollows : tree.Follows next held :=
        ⟨depth, target, hlink, by rwa [List.dropLast_concat]⟩
      obtain ⟨hrest, hlearned⟩ := ihRest _ _ (hinner.cons_some hfollows) h
      exact ⟨.cons_link (by simpa using hstep) hdots hfollows hrest, hlearned⟩
  | case9 fuel known address segment rest hstep hdots next hother ih =>
      intro found learned hknown h
      obtain ⟨⟨depth, hrest⟩, hlearned⟩ := ih _ _ hknown h
      exact ⟨⟨depth, .down (by simpa using hstep) hdots hother hrest⟩, hlearned⟩

theorem resolveLinks_eq_complete_iff :
    (∃ learned, tree.resolveLinks (tree.entries.length + 1) [] address segments =
        .complete found learned) ↔ tree.Leads address segments found := by
  constructor
  · rintro ⟨learned, h⟩
    have hnone : KnownLinks.AreRight tree [] := fun _ _ hlookup => by cases hlookup
    exact (leads_of_resolveLinks _ [] address segments _ _ hnone h).1
  · rintro ⟨depth, h⟩
    have hfuel : tree.entries.length < ([] : List Address).length + (tree.entries.length + 1) := by
      simp
    obtain ⟨learned, hcomplete, -⟩ := resolveLinks_of_leadsWithin _ [] address segments _ _ _
      tree.knows_nil (fun link hlink => absurd hlink List.not_mem_nil) hfuel h
    exact ⟨learned, hcomplete⟩

/-! ## Real paths -/

variable {current path : Path} {real : AbsolutePath} {links : Nat} {names : List Text}

theorem walk_ne_linkLoop (hnames : ∀ name ∈ names, Path.isName name = true)
    (hreal : tree.IsReal (address ++ names)) :
    tree.walk true links address names ≠ .error .linkLoop := by
  induction names generalizing address with
  | nil =>
      rw [walk]
      simp
  | cons name rest ih =>
      obtain ⟨hname, hrest⟩ := List.forall_mem_cons.mp hnames
      have hsplit : address ++ name :: rest = (address ++ [name]) ++ rest := by simp
      rw [hsplit] at hreal
      have hgoes := ih hrest hreal
      have hdots : name ≠ Path.doubleDot := by
        rintro rfl
        simp [Path.isName] at hname
      rw [walk]
      cases hdirectory : tree.isDirectory address with
      | false => simp
      | true =>
          by_cases hlong : maxNameBytes < Text.byteLength name
          · simp [(Path.isStep_of_isName hname).1, hdots, hlong]
          · cases hentry : tree.get? (address ++ [name]) with
            | none => simp [(Path.isStep_of_isName hname).1, hdots, hlong]
            | some entry =>
                cases entry with
                | link target =>
                    exact absurd hentry (hreal (address ++ [name]) (List.prefix_append _ _) target)
                | file content => simpa [(Path.isStep_of_isName hname).1, hdots, hlong] using hgoes
                | directory => simpa [(Path.isStep_of_isName hname).1, hdots, hlong] using hgoes

theorem find?_ne_linkLoop (habsolute : path.isAbsolute = true)
    (hnames : IsNamed path.segments) (hreal : tree.IsReal path.segments) :
    tree.find? current path ≠ .error .linkLoop := by
  have hlocate : tree.locate true current path ≠ .error .linkLoop := by
    rw [locate, if_pos habsolute]
    by_cases hnull : '\x00' ∈ path.text
    · simp [hnull]
    · by_cases hlong : maxPathBytes < Text.byteLength path.text
      · simp [hnull, hlong]
      · simpa [hnull, hlong] using walk_ne_linkLoop hnames hreal
  unfold find?
  cases hreached : tree.locate true current path with
  | error obstacle =>
      rw [hreached] at hlocate
      simpa using hlocate
  | ok reached => cases hentry : tree.get? reached <;> simp [hentry]

/-- The address that the segments of a path lead from. -/
def startOf (current path : Path) : Address :=
  if path.isAbsolute then [] else current.segments

/-- A directory of the tree that paths are seen from. -/
structure IsWorkingDirectory (tree : FileTree) (current : Path) : Prop where
  isAbsolute : current.isAbsolute = true
  isDirectory : tree.isDirectory current.segments = true

theorem IsWorkingDirectory.isNormal (h : tree.IsWorkingDirectory current) : current.IsNormal :=
  Path.isNormal_of_names h.isAbsolute (Listing.names_of_isDirectory tree.wellFormed h.isDirectory)

theorem isDirectory_startOf (hcurrent : tree.IsWorkingDirectory current) (path : Path) :
    tree.isDirectory (startOf current path) = true := by
  rw [startOf]
  split
  · rfl
  · exact hcurrent.isDirectory

theorem realPath_of_leads (hnull : '\x00' ∉ path.text) (hproper : path.IsProper)
    (hstart : tree.isDirectory (startOf current path) = true)
    (h : tree.Leads (startOf current path) path.segments found) :
    tree.realPath current path = .ok ⟨⟨.root, found⟩, rfl⟩ := by
  obtain ⟨learned, hresolved⟩ := resolveLinks_eq_complete_iff.mpr h
  have hnames : IsNamed found := by
    have hnamed := isNamed_resolveLinks tree (tree.entries.length + 1)
      (fun _ _ hmem => absurd hmem List.not_mem_nil)
      (Listing.names_of_isDirectory tree.wellFormed hstart)
      fun segment hsegment => (hproper segment hsegment).2
    rw [hresolved] at hnamed
    exact hnamed.1
  have hloop : tree.find? current ⟨.root, found⟩ ≠ .error .linkLoop :=
    find?_ne_linkLoop rfl hnames (h.isReal (isReal_of_isDirectory hstart))
  rw [startOf] at hresolved
  -- That there is no loop is found in the context, as a condition of the last case.
  simp only [realPath, hnull, hresolved, List.elem_eq_mem, decide_false, Bool.false_eq_true,
    if_false]

theorem exists_realPath_of_isDirectoryAt (hproper : path.IsProper)
    (h : tree.isDirectoryAt current path = .ok true) :
    ∃ real, tree.realPath current path = .ok real := by
  unfold isDirectoryAt leadsTo find? at h
  cases hlocate : tree.locate true current path with
  | error obstacle => cases obstacle <;> simp [hlocate] at h
  | ok reached =>
      obtain ⟨hnull, -, hwalk⟩ := locate_eq_ok_iff.mp hlocate
      have hreached : tree.isDirectory reached = true := by
        rw [hlocate] at h
        rw [isDirectory, Listing.isDirectory_iff]
        cases hentry : tree.get? reached with
        | none => simp [hentry] at h
        | some entry =>
            cases entry with
            | directory => exact hentry
            | file content => simp [hentry] at h
            | link target => simp [hentry] at h
      have hstart : tree.isDirectory (startOf current path) = true := by
        rw [startOf]
        cases hsegments : path.segments with
        | nil =>
            rw [hsegments, walk] at hwalk
            rwa [Except.ok.inj hwalk]
        | cons segment rest =>
            rw [hsegments] at hwalk
            exact isDirectory_of_walk hwalk
      exact ⟨_, realPath_of_leads hnull hproper hstart (leads_of_walk hwalk)⟩

theorem LoopFree.realPath_eq_ok_iff (hfree : tree.LoopFree)
    (hcurrent : tree.IsWorkingDirectory current) (hproper : path.IsProper) :
    tree.realPath current path = .ok real ↔
      '\x00' ∉ path.text ∧ real.val.anchor = .root ∧
        tree.Leads (startOf current path) path.segments real.val.segments := by
  have hstart := isDirectory_startOf hcurrent path
  constructor
  · intro h
    have hnull : '\x00' ∉ path.text := by
      intro hmem
      simp [realPath, hmem] at h
    obtain ⟨found, hleads⟩ := hfree.exists_leads (startOf current path) path.segments
    obtain rfl := Except.ok.inj (h.symm.trans (realPath_of_leads hnull hproper hstart hleads))
    exact ⟨hnull, rfl, hleads⟩
  · rintro ⟨hnull, hanchor, hleads⟩
    rw [realPath_of_leads hnull hproper hstart hleads, Except.ok.injEq, Subtype.ext_iff]
    simp [← hanchor]

/-- The null character, which no file system can store, is in no name and in no target. -/
def IsNullFree (tree : FileTree) : Prop :=
  ∀ item ∈ tree.entries, (∀ name ∈ item.1, '\x00' ∉ name) ∧
    ∀ target, item.2 = .link target → '\x00' ∉ target

theorem mem_entries {entry : Entry} (h : tree.get? address = some entry)
    (hroot : address ≠ []) : (address, entry) ∈ tree.entries :=
  (Listing.get?_eq_some_iff tree.wellFormed hroot entry).mp h

theorem IsNullFree.of_isDirectory (h : tree.IsNullFree)
    (hdirectory : tree.isDirectory address = true) : ∀ name ∈ address, '\x00' ∉ name := by
  by_cases hroot : address = []
  · simp [hroot]
  · exact (h _ (mem_entries (Listing.isDirectory_iff.mp hdirectory) hroot)).1

theorem IsNullFree.of_link (h : tree.IsNullFree) {link : Address} {target : Text}
    (hlink : tree.get? link = some (.link target)) : '\x00' ∉ target := by
  have hroot : link ≠ [] := by
    rintro rfl
    cases hlink
  exact (h _ (mem_entries hlink hroot)).2 target rfl

theorem IsNullFree.realPath (h : tree.IsNullFree) (hcurrent : tree.IsWorkingDirectory current)
    (hnull : '\x00' ∉ path.text)
    (hleads : tree.Leads (startOf current path) path.segments found) :
    '\x00' ∉ Path.text ⟨.root, found⟩ := by
  have hnames : ∀ name ∈ found, '\x00' ∉ name := by
    refine hleads.forall_mem (fun link target hlink segment hsegment hmem => ?_)
      (h.of_isDirectory (isDirectory_startOf hcurrent path))
      fun segment hsegment hmem => hnull (Path.mem_text hsegment hmem)
    exact h.of_link hlink (Path.mem_of_mem_splitOn hsegment hmem)
  intro hmem
  have hjoined : '\x00' ∈ Path.joinSegments found := by simpa [Path.text, Anchor.text] using hmem
  rcases Path.exists_of_mem_joinSegments hjoined with hslash | ⟨name, hname, hin⟩
  · cases hslash
  · exact hnames name hname hin

theorem LoopFree.realPath_text (hfree : tree.LoopFree) (hnull : tree.IsNullFree)
    (hcurrent : tree.IsWorkingDirectory current) (hproper : path.IsProper)
    (h : tree.realPath current path = .ok real) (other : Path) :
    tree.realPath other (.ofText real.val.text) = .ok real := by
  have hnormal : real.val.IsNormal := isNormal_of_realPath hcurrent.isNormal hproper h
  obtain ⟨hpath, hanchor, hleads⟩ := (hfree.realPath_eq_ok_iff hcurrent hproper).mp h
  have hreal : real.val = ⟨.root, real.val.segments⟩ := by simp [← hanchor]
  have hstart : startOf other real.val = [] := if_pos real.property
  have hnames : ∀ name ∈ real.val.segments, Path.isName name = true := fun _ => hnormal.isName
  have hagain : tree.Leads [] real.val.segments real.val.segments :=
    leads_names hnames (hleads.isReal (isReal_of_isDirectory (isDirectory_startOf hcurrent path)))
  rw [Path.ofText_text hnormal.isProper, @realPath_of_leads _ real.val.segments other real.val ?_
    hnormal.isProper (by rw [hstart]; rfl) (by rwa [hstart])]
  · exact congrArg Except.ok (Subtype.ext hreal.symm)
  · rw [hreal]
    exact hnull.realPath hcurrent hpath hleads

end Stylesheets.FileTree
