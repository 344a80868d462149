import Mathlib.Data.List.Sublists
import Stylesheets.Proofs.Path.Root
import Stylesheets.Proofs.Path.Spelling

/-!
# Paths inside a root

A path is inside a root if it leads to it or below it.  A way without double
dots stays inside, also if something is written after it.  A double dot at its
end leads out only from the root itself, and so does what is written after the
root, as it makes another name of its last one.
-/

namespace Stylesheets.Path

variable {root : Path} {way : List Text} {last more : Text}

def IsInside (path root : Path) : Prop := root.holds path.normalize = true

theorem isInside_iff {path : Path} :
    path.IsInside root ↔ root.anchor = path.anchor ∧ root.segments <+: path.normalize.segments :=
  holds_iff

theorem not_mem_descend (hroot : root.IsNormal) (hway : doubleDot ∉ way) :
    doubleDot ∉ (root.descend way).segments := by
  rw [descend, List.mem_append, not_or]
  exact ⟨hroot.not_mem, hway⟩

theorem child_descend (root : Path) (way : List Text) (last : Text) :
    (root.descend way).child last = root.descend (way ++ [last]) := by
  simp [child, descend]

theorem isInside_descend (hroot : root.IsNormal) (hway : doubleDot ∉ way) :
    (root.descend way).IsInside root := by
  rw [isInside_iff, normalize_eq_self (not_mem_descend hroot hway)]
  exact ⟨rfl, List.prefix_append _ _⟩

theorem isInside_child (hroot : root.IsNormal) (hway : doubleDot ∉ way) (hlast : last ≠ doubleDot) :
    ((root.descend way).child last).IsInside root := by
  have hlonger : doubleDot ∉ way ++ [last] := by
    rw [List.mem_append, List.mem_singleton, not_or]
    exact ⟨hway, Ne.symm hlast⟩
  rw [child_descend]
  exact isInside_descend hroot hlonger

theorem isInside_child_doubleDot_iff (hroot : root.IsNormal) (hway : doubleDot ∉ way) :
    ((root.descend way).child doubleDot).IsInside root ↔ root.segments = [] ∨ way ≠ [] := by
  have habsolute : (root.descend way).isAbsolute = true := hroot.isAbsolute
  rw [isInside_iff, normalize_child_doubleDot habsolute (not_mem_descend hroot hway)]
  simp only [parent, descend, child, true_and]
  cases way using List.reverseRec with
  | nil =>
      cases hsegments : root.segments using List.reverseRec with
      | nil => simp
      | append_singleton before name _ =>
          have hshorter : ¬ before ++ [name] <+: before := by
            intro hbegins
            have hlength := hbegins.length_le
            rw [List.length_append, List.length_singleton] at hlength
            omega
          simp [hshorter]
  | append_singleton before name _ =>
      rw [← List.append_assoc, List.dropLast_concat]
      simp

theorem isInside_child_iff (hroot : root.IsNormal) (hway : doubleDot ∉ way) :
    ((root.descend way).child last).IsInside root ↔
      root.segments = [] ∨ way ≠ [] ∨ last ≠ doubleDot := by
  by_cases hdots : last = doubleDot
  · rw [hdots, isInside_child_doubleDot_iff hroot hway]
    simp
  · exact iff_of_true (isInside_child hroot hway hdots) (.inr (.inr hdots))

theorem eq_doubleDot_of_sublist {text : Text} (hstep : isStep text = true)
    (h : text.Sublist doubleDot) : text = doubleDot := by
  have hparts : ∀ part ∈ doubleDot.sublists, isStep part = true → part = doubleDot := by decide
  exact hparts text (List.mem_sublists.mpr h) hstep

theorem append_ne_doubleDot (hstep : isStep last = true) (hlast : last ≠ doubleDot) (more : Text) :
    last ++ more ≠ doubleDot := fun hdots =>
  hlast (eq_doubleDot_of_sublist hstep (hdots ▸ List.sublist_append_left last more))

theorem append_right_ne_doubleDot (hstep : isStep more = true) (hmore : more ≠ doubleDot)
    (first : Text) : first ++ more ≠ doubleDot := fun hdots =>
  hmore (eq_doubleDot_of_sublist hstep (hdots ▸ List.sublist_append_right first more))

theorem isInside_ofText_text_append_iff (hroot : root.IsNormal) (hmore : '/' ∉ more) :
    (ofText (root.text ++ more)).IsInside root ↔ root.segments = [] ∨ more = [] := by
  obtain ⟨anchor, segments⟩ := root
  cases segments using List.reverseRec with
  | nil =>
      rw [isInside_iff, anchor_ofText_text_append hroot.isProper hmore]
      simp
  | append_singleton before last _ =>
      have hname := hroot.isName (List.mem_append_right before (List.mem_singleton.mpr rfl))
      have hlevel : doubleDot ∉ before ++ [last ++ more] := by
        rw [List.mem_append, List.mem_singleton, not_or]
        refine ⟨fun hmem => hroot.not_mem (List.mem_append_left _ hmem), Ne.symm ?_⟩
        refine append_ne_doubleDot (isStep_of_isName hname).1 ?_ more
        rintro rfl
        simp [isName] at hname
      have hlonger : ofText (((⟨anchor, before⟩ : Path).child last).text ++ more) =
          (⟨anchor, before⟩ : Path).child (last ++ more) :=
        ofText_text_append hroot.isAbsolute hroot.isProper hmore
      change (ofText (((⟨anchor, before⟩ : Path).child last).text ++ more)).IsInside _ ↔ _
      rw [hlonger, isInside_iff, normalize_eq_self hlevel]
      simp [child, List.prefix_append_right_inj]

theorem isInside_extended (hroot : root.IsNormal) (hway : doubleDot ∉ way)
    (hproper : (root.descend way).IsProper) (hnonempty : way ≠ []) (hmore : '/' ∉ more) :
    (ofText ((root.descend way).text ++ more)).IsInside root := by
  cases way using List.reverseRec with
  | nil => exact absurd rfl hnonempty
  | append_singleton before last _ =>
      rw [List.mem_append, List.mem_singleton, not_or] at hway
      have hstep : isStep last = true := (hproper last (by simp [descend])).1
      have habsolute : (root.descend before).isAbsolute = true := hroot.isAbsolute
      rw [← child_descend] at hproper ⊢
      rw [ofText_text_append habsolute hproper hmore]
      exact isInside_child hroot hway.1 (append_ne_doubleDot hstep (Ne.symm hway.2) more)

theorem not_isInside_of_cutsName {directory : Path} {name : Text} (hdirectory : directory.IsNormal)
    (hcut : cutsName root.segments directory.segments = true) (hname : '/' ∉ name) :
    ¬ (directory.append (ofText name)).IsInside root := by
  have hjoined : directory.append (ofText name) = directory.descend (steps name) :=
    append_ofText directory (Spelling.isAbsolute_of_slash_not_mem hname)
  rw [hjoined, steps_of_slash_not_mem hname, isInside_iff]
  rintro ⟨-, hbegins⟩
  split at hbegins
  · by_cases hdots : name = doubleDot
    · subst hdots
      change root.segments <+: (directory.child doubleDot).normalize.segments at hbegins
      rw [normalize_child_doubleDot hdirectory.isAbsolute hdirectory.not_mem] at hbegins
      exact not_prefix_of_cutsName hcut (hbegins.trans (List.dropLast_prefix _))
    · have hway : doubleDot ∉ [name] := by simpa using Ne.symm hdots
      rw [normalize_eq_self (not_mem_descend hdirectory hway)] at hbegins
      exact not_prefix_of_cutsName (cutsName_append hcut [name]) hbegins
  · rw [normalize_eq_self (not_mem_descend hdirectory List.not_mem_nil)] at hbegins
    exact not_prefix_of_cutsName (cutsName_append hcut []) hbegins

end Stylesheets.Path
