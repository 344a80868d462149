import Stylesheets.Proofs.FileTree.Walk

/-!
# Where links lead

Segments lead from one address to another: down at a name, up at a double dot,
and at a link to wherever its target leads.  A link that meets itself again in
its own target leads nowhere; in a tree without such links everything leads
somewhere, and always to an address that no link stands on.
-/

namespace Stylesheets.FileTree

def linkStart (address : Address) (target : Text) : Address :=
  if isLinkToRoot target then [] else address

/-- Where segments lead from an address; at most so many links are met inside each other. -/
inductive LeadsWithin (tree : FileTree) : Nat → Address → List Text → Address → Prop
  | done {depth : Nat} {address : Address} : LeadsWithin tree depth address [] address
  | skip {depth : Nat} {address found : Address} {segment : Text} {rest : List Text}
      (hstep : Path.isStep segment = false) (hrest : LeadsWithin tree depth address rest found) :
      LeadsWithin tree depth address (segment :: rest) found
  | up {depth : Nat} {address found : Address} {rest : List Text}
      (hrest : LeadsWithin tree depth address.dropLast rest found) :
      LeadsWithin tree depth address (Path.doubleDot :: rest) found
  | down {depth : Nat} {address found : Address} {segment : Text} {rest : List Text}
      (hstep : Path.isStep segment = true) (hdots : segment ≠ Path.doubleDot)
      (hother : ∀ target, tree.get? (address ++ [segment]) ≠ some (.link target))
      (hrest : LeadsWithin tree depth (address ++ [segment]) rest found) :
      LeadsWithin tree depth address (segment :: rest) found
  | link {depth : Nat} {address inside found : Address} {segment target : Text}
      {rest : List Text} (hstep : Path.isStep segment = true) (hdots : segment ≠ Path.doubleDot)
      (hlink : tree.get? (address ++ [segment]) = some (.link target))
      (htarget : LeadsWithin tree depth (linkStart address target) (target.splitOn '/') inside)
      (hrest : LeadsWithin tree (depth + 1) inside rest found) :
      LeadsWithin tree (depth + 1) address (segment :: rest) found

def Leads (tree : FileTree) (address : Address) (segments : List Text) (found : Address) : Prop :=
  ∃ depth, tree.LeadsWithin depth address segments found

def FollowsWithin (tree : FileTree) (depth : Nat) (link found : Address) : Prop :=
  ∃ target, tree.get? link = some (.link target) ∧
    tree.LeadsWithin depth (linkStart link.dropLast target) (target.splitOn '/') found

def Follows (tree : FileTree) (link found : Address) : Prop :=
  ∃ depth, tree.FollowsWithin depth link found

/-- No link leads back to itself: each of them leads somewhere. -/
def LoopFree (tree : FileTree) : Prop :=
  ∀ link target, tree.get? link = some (.link target) → ∃ found, tree.Follows link found

variable {tree : FileTree} {depth more : Nat} {address found other : Address}
  {segment target : Text} {segments rest : List Text}

theorem LeadsWithin.of_skip (hstep : Path.isStep segment = false)
    (h : tree.LeadsWithin depth address (segment :: rest) found) :
    tree.LeadsWithin depth address rest found := by
  cases h with
  | skip _ hrest => exact hrest
  | up hrest => cases hstep
  | down htrue => exact absurd (hstep.symm.trans htrue) Bool.false_ne_true
  | link htrue => exact absurd (hstep.symm.trans htrue) Bool.false_ne_true

theorem LeadsWithin.of_up (h : tree.LeadsWithin depth address (Path.doubleDot :: rest) found) :
    tree.LeadsWithin depth address.dropLast rest found := by
  cases h with
  | skip hstep => cases hstep
  | up hrest => exact hrest
  | down _ hdots => exact absurd rfl hdots
  | link _ hdots => exact absurd rfl hdots

theorem LeadsWithin.of_down (hstep : Path.isStep segment = true)
    (hdots : segment ≠ Path.doubleDot)
    (hother : ∀ target, tree.get? (address ++ [segment]) ≠ some (.link target))
    (h : tree.LeadsWithin depth address (segment :: rest) found) :
    tree.LeadsWithin depth (address ++ [segment]) rest found := by
  cases h with
  | skip hfalse => exact absurd (hfalse.symm.trans hstep) Bool.false_ne_true
  | up => exact absurd rfl hdots
  | down _ _ _ hrest => exact hrest
  | link _ _ hlink => exact absurd hlink (hother _)

theorem LeadsWithin.of_link (hstep : Path.isStep segment = true)
    (hdots : segment ≠ Path.doubleDot)
    (hlink : tree.get? (address ++ [segment]) = some (.link target))
    (h : tree.LeadsWithin depth address (segment :: rest) found) :
    ∃ less inside, depth = less + 1 ∧
      tree.FollowsWithin less (address ++ [segment]) inside ∧
        tree.LeadsWithin depth inside rest found := by
  cases h with
  | skip hfalse => exact absurd (hfalse.symm.trans hstep) Bool.false_ne_true
  | up => exact absurd rfl hdots
  | down _ _ hother => exact absurd hlink (hother _)
  | @link less _ inside _ _ own _ _ _ hown htarget hrest =>
      refine ⟨less, inside, rfl, ⟨own, hown, ?_⟩, hrest⟩
      rwa [List.dropLast_concat]

theorem LeadsWithin.cons_link {less : Nat} {inside : Address}
    (hstep : Path.isStep segment = true) (hdots : segment ≠ Path.doubleDot)
    (hfollows : tree.FollowsWithin less (address ++ [segment]) inside)
    (hrest : tree.LeadsWithin (less + 1) inside rest found) :
    tree.LeadsWithin (less + 1) address (segment :: rest) found := by
  obtain ⟨target, hlink, htarget⟩ := hfollows
  rw [List.dropLast_concat] at htarget
  exact .link hstep hdots hlink htarget hrest

theorem FollowsWithin.leadsWithin
    (hlink : tree.get? (address ++ [segment]) = some (.link target))
    (h : tree.FollowsWithin depth (address ++ [segment]) found) :
    tree.LeadsWithin depth (linkStart address target) (target.splitOn '/') found := by
  obtain ⟨own, hown, htarget⟩ := h
  obtain rfl := Entry.link.inj (Option.some.inj (hlink.symm.trans hown))
  rwa [List.dropLast_concat] at htarget

/-! ## More links at a time -/

theorem LeadsWithin.mono (h : tree.LeadsWithin depth address segments found)
    (hmore : depth ≤ more) : tree.LeadsWithin more address segments found := by
  induction h generalizing more with
  | done => exact .done
  | skip hstep _ ih => exact .skip hstep (ih hmore)
  | up _ ih => exact .up (ih hmore)
  | down hstep hdots hother _ ih => exact .down hstep hdots hother (ih hmore)
  | link hstep hdots hlink _ _ ihTarget ihRest =>
      obtain ⟨less, rfl⟩ : ∃ less, more = less + 1 := ⟨more - 1, by omega⟩
      exact .link hstep hdots hlink (ihTarget (Nat.le_of_succ_le_succ hmore)) (ihRest hmore)

theorem FollowsWithin.mono {link : Address} (h : tree.FollowsWithin depth link found)
    (hmore : depth ≤ more) : tree.FollowsWithin more link found := by
  obtain ⟨target, hlink, htarget⟩ := h
  exact ⟨target, hlink, htarget.mono hmore⟩

theorem Leads.cons_link {inside : Address} (hstep : Path.isStep segment = true)
    (hdots : segment ≠ Path.doubleDot) (hfollows : tree.Follows (address ++ [segment]) inside)
    (hrest : tree.Leads inside rest found) : tree.Leads address (segment :: rest) found := by
  obtain ⟨less, hfollows⟩ := hfollows
  obtain ⟨depth, hrest⟩ := hrest
  refine ⟨max less depth + 1, .cons_link hstep hdots (hfollows.mono (Nat.le_max_left _ _)) ?_⟩
  exact hrest.mono (Nat.le_succ_of_le (Nat.le_max_right _ _))

theorem LeadsWithin.unique (h : tree.LeadsWithin depth address segments found)
    (hother : tree.LeadsWithin more address segments other) : found = other := by
  induction h generalizing more other with
  | done =>
      cases hother
      rfl
  | skip hstep _ ih => exact ih (hother.of_skip hstep)
  | up _ ih => exact ih hother.of_up
  | down hstep hdots hnone _ ih => exact ih (hother.of_down hstep hdots hnone)
  | link hstep hdots hlink _ _ ihTarget ihRest =>
      obtain ⟨less, inside, -, hfollows, hrest⟩ := hother.of_link hstep hdots hlink
      obtain rfl := ihTarget (hfollows.leadsWithin hlink)
      exact ihRest hrest

theorem Follows.unique {link : Address} (h : tree.Follows link found)
    (hother : tree.Follows link other) : found = other := by
  obtain ⟨depth, target, hlink, h⟩ := h
  obtain ⟨more, own, hown, hother⟩ := hother
  obtain rfl := Entry.link.inj (Option.some.inj (hlink.symm.trans hown))
  exact h.unique hother

theorem LeadsWithin.exists_of_append {first : List Text}
    (h : tree.LeadsWithin depth address (first ++ rest) found) :
    ∃ inside, tree.LeadsWithin depth address first inside ∧
      tree.LeadsWithin depth inside rest found := by
  generalize hsegments : first ++ rest = segments at h
  induction h generalizing first with
  | done =>
      obtain ⟨rfl, rfl⟩ := List.append_eq_nil_iff.mp hsegments
      exact ⟨_, .done, .done⟩
  | @skip depth address found segment later hstep hlater ih =>
      rcases List.append_eq_cons_iff.mp hsegments with ⟨rfl, rfl⟩ | ⟨first, rfl, rfl⟩
      · exact ⟨address, .done, .skip hstep hlater⟩
      · obtain ⟨inside, hfirst, hrest⟩ := ih rfl
        exact ⟨inside, .skip hstep hfirst, hrest⟩
  | @up depth address found later hlater ih =>
      rcases List.append_eq_cons_iff.mp hsegments with ⟨rfl, rfl⟩ | ⟨first, rfl, rfl⟩
      · exact ⟨address, .done, .up hlater⟩
      · obtain ⟨inside, hfirst, hrest⟩ := ih rfl
        exact ⟨inside, .up hfirst, hrest⟩
  | @down depth address found segment later hstep hdots hother hlater ih =>
      rcases List.append_eq_cons_iff.mp hsegments with ⟨rfl, rfl⟩ | ⟨first, rfl, rfl⟩
      · exact ⟨address, .done, .down hstep hdots hother hlater⟩
      · obtain ⟨inside, hfirst, hrest⟩ := ih rfl
        exact ⟨inside, .down hstep hdots hother hfirst, hrest⟩
  | @link depth address start found segment target later hstep hdots hlink htarget hlater _ ih =>
      rcases List.append_eq_cons_iff.mp hsegments with ⟨rfl, rfl⟩ | ⟨first, rfl, rfl⟩
      · exact ⟨address, .done, .link hstep hdots hlink htarget hlater⟩
      · obtain ⟨inside, hfirst, hrest⟩ := ih rfl
        exact ⟨inside, .link hstep hdots hlink htarget hfirst, hrest⟩

theorem LoopFree.exists_leads (hfree : tree.LoopFree) (address : Address)
    (segments : List Text) : ∃ found, tree.Leads address segments found := by
  induction segments generalizing address with
  | nil => exact ⟨address, 0, .done⟩
  | cons segment rest ih =>
      cases hstep : Path.isStep segment with
      | false =>
          obtain ⟨found, depth, hrest⟩ := ih address
          exact ⟨found, depth, .skip hstep hrest⟩
      | true =>
          by_cases hdots : segment = Path.doubleDot
          · obtain ⟨found, depth, hrest⟩ := ih address.dropLast
            exact ⟨found, depth, hdots ▸ .up hrest⟩
          · by_cases hlink : ∃ target, tree.get? (address ++ [segment]) = some (.link target)
            · obtain ⟨target, htarget⟩ := hlink
              obtain ⟨inside, hfollows⟩ := hfree _ target htarget
              obtain ⟨found, hrest⟩ := ih inside
              exact ⟨found, .cons_link hstep hdots hfollows hrest⟩
            · obtain ⟨found, depth, hrest⟩ := ih (address ++ [segment])
              exact ⟨found, depth, .down hstep hdots (not_exists.mp hlink) hrest⟩

/-! ## What is found -/

theorem Leads.forall_mem {holds : Text → Prop}
    (htargets : ∀ link target, tree.get? link = some (.link target) →
      ∀ segment ∈ target.splitOn '/', holds segment)
    (h : tree.Leads address segments found) (haddress : ∀ name ∈ address, holds name)
    (hsegments : ∀ segment ∈ segments, holds segment) : ∀ name ∈ found, holds name := by
  obtain ⟨depth, h⟩ := h
  induction h with
  | done => exact haddress
  | skip _ _ ih => exact ih haddress (List.forall_mem_cons.mp hsegments).2
  | up _ ih =>
      refine ih (fun name hname => ?_) (List.forall_mem_cons.mp hsegments).2
      exact haddress name ((List.dropLast_sublist _).subset hname)
  | down _ _ _ _ ih =>
      obtain ⟨hsegment, hrest⟩ := List.forall_mem_cons.mp hsegments
      refine ih (List.forall_mem_append.mpr ⟨haddress, ?_⟩) hrest
      exact List.forall_mem_singleton.mpr hsegment
  | @link _ address _ _ _ target _ _ _ hlink _ _ ihTarget ihRest =>
      refine ihRest (ihTarget ?_ (htargets _ _ hlink)) (List.forall_mem_cons.mp hsegments).2
      unfold linkStart
      split
      · exact List.forall_mem_nil _
      · exact haddress

/-- No link stands on the way to an address or at its end. -/
def IsReal (tree : FileTree) (address : Address) : Prop :=
  ∀ between, between <+: address → ∀ target, tree.get? between ≠ some (.link target)

theorem isReal_nil (tree : FileTree) : tree.IsReal [] := by
  intro between hbetween target hlink
  rw [List.prefix_nil.mp hbetween] at hlink
  cases hlink

theorem IsReal.of_prefix (h : tree.IsReal address) (hother : other <+: address) :
    tree.IsReal other :=
  fun between hbetween => h between (hbetween.trans hother)

theorem IsReal.child (h : tree.IsReal address)
    (hother : ∀ target, tree.get? (address ++ [segment]) ≠ some (.link target)) :
    tree.IsReal (address ++ [segment]) := by
  intro between hbetween
  rcases List.prefix_concat_iff.mp hbetween with rfl | hbefore
  · exact hother
  · exact h between hbefore

theorem isReal_of_isDirectory (h : tree.isDirectory address = true) :
    tree.IsReal address := by
  rintro between ⟨below, rfl⟩ target hlink
  have hdirectory : tree.isDirectory between = true := by
    by_cases hbelow : below = []
    · simpa [hbelow] using h
    · refine Listing.isDirectory_of_append tree.wellFormed between hbelow ?_
      exact Option.isSome_of_eq_some (Listing.isDirectory_iff.mp h)
  cases hlink.symm.trans (Listing.isDirectory_iff.mp hdirectory)

theorem Leads.isReal (h : tree.Leads address segments found)
    (haddress : tree.IsReal address) : tree.IsReal found := by
  obtain ⟨depth, h⟩ := h
  induction h with
  | done => exact haddress
  | skip _ _ ih => exact ih haddress
  | up _ ih => exact ih (haddress.of_prefix (List.dropLast_prefix _))
  | down _ _ hother _ ih => exact ih (haddress.child hother)
  | @link _ address _ _ _ target _ _ _ _ _ _ ihTarget ihRest =>
      refine ihRest (ihTarget ?_)
      unfold linkStart
      split
      · exact tree.isReal_nil
      · exact haddress

theorem leads_names {names : List Text} (hnames : ∀ name ∈ names, Path.isName name = true)
    (hfree : tree.IsReal (address ++ names)) : tree.Leads address names (address ++ names) := by
  refine ⟨0, ?_⟩
  induction names generalizing address with
  | nil =>
      rw [List.append_nil]
      exact .done
  | cons name rest ih =>
      obtain ⟨hname, hrest⟩ := List.forall_mem_cons.mp hnames
      have hsplit : address ++ name :: rest = (address ++ [name]) ++ rest := by simp
      rw [hsplit] at hfree ⊢
      have hdots : name ≠ Path.doubleDot := by
        rintro rfl
        simp [Path.isName] at hname
      refine .down (Path.isStep_of_isName hname).1 hdots ?_ (ih hrest hfree)
      exact hfree (address ++ [name]) (List.prefix_append _ _)

/-- A walk that comes to its end leads there, however many links it follows. -/
theorem leads_of_walk {links : Nat} (h : tree.walk true links address segments = .ok found) :
    tree.Leads address segments found := by
  fun_induction FileTree.walk tree true links address segments with
  | case1 =>
      obtain rfl := Except.ok.inj h
      exact ⟨0, .done⟩
  | case2 => cases h
  | case3 links address segment rest hdirectory hstep ih =>
      obtain ⟨depth, hrest⟩ := ih h
      exact ⟨depth, .skip (by simpa using hstep) hrest⟩
  | case4 links address rest hdirectory hstep ih =>
      obtain ⟨depth, hrest⟩ := ih h
      exact ⟨depth, .up hrest⟩
  | case5 => cases h
  | case6 => cases h
  | case7 links address segment rest hdirectory hstep hdots hshort target hentry hlast =>
      simp at hlast
  | case8 => cases h
  | case9 address segment rest hdirectory hstep hdots hshort target hentry hlast left ih =>
      -- The walk puts the target before the rest; here both parts lead on their own.
      obtain ⟨depth, hwhole⟩ := ih h
      obtain ⟨inside, htarget, hrest⟩ := hwhole.exists_of_append
      refine .cons_link (by simpa using hstep) hdots ⟨depth, target, hentry, ?_⟩ ⟨depth, hrest⟩
      rwa [List.dropLast_concat]
  | case10 links address segment rest hdirectory hstep hdots hshort entry hlink hentry ih =>
      obtain ⟨depth, hrest⟩ := ih h
      refine ⟨depth, .down (by simpa using hstep) hdots (fun target htarget => ?_) hrest⟩
      exact hlink target (Option.some.inj (hentry.symm.trans htarget))

end Stylesheets.FileTree
