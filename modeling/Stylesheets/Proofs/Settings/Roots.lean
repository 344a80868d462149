import Stylesheets.Proofs.FileTree.RealPath
import Stylesheets.Settings.Basic

/-!
# Roots are normal paths

The root path and the roots of settings are real paths, whatever they are
called in the values that the settings are read from.
-/

namespace Stylesheets

namespace Settings

variable {tree : FileTree} {current rootPath : Path} {value : Value} {root : AbsolutePath}

theorem isNormal_of_rootPathOf (hcurrent : current.IsNormal)
    (h : rootPathOf tree current value = .ok root) : root.val.IsNormal := by
  unfold rootPathOf at h
  split at h
  · exact FileTree.isNormal_of_realPath hcurrent hcurrent.isProper h
  · obtain ⟨text, -, hreal⟩ := Fault.bind_eq_ok_iff.mp h
    exact FileTree.isNormal_of_realPath hcurrent (Path.isProper_ofText text) hreal

theorem isNormal_of_rootOf (hcurrent : current.IsNormal) (hrootPath : rootPath.IsNormal)
    (h : rootOf tree current rootPath value = .ok root) : root.val.IsNormal := by
  obtain ⟨text, -, hreal⟩ := Fault.bind_eq_ok_iff.mp h
  exact FileTree.isNormal_of_realPath hcurrent
    (hrootPath.isProper.append (Path.isProper_ofText text)) hreal

theorem isNormal_of_ofValues {given : Setting → Option Value} {settings : Settings}
    (hcurrent : current.IsNormal) (h : ofValues tree current given = .ok settings) :
    settings.rootPath.IsNormal ∧ ∀ root ∈ settings.roots, root.IsNormal := by
  obtain ⟨rootPath, hrootPath, hread⟩ := Fault.bind_eq_ok_iff.mp h
  obtain ⟨named, -, hread⟩ := Fault.bind_eq_ok_iff.mp hread
  obtain ⟨roots, hroots, hread⟩ := Fault.bind_eq_ok_iff.mp hread
  obtain ⟨extensions, -, hread⟩ := Fault.bind_eq_ok_iff.mp hread
  obtain ⟨prefixes, -, hread⟩ := Fault.bind_eq_ok_iff.mp hread
  obtain ⟨excludes, -, hread⟩ := Fault.bind_eq_ok_iff.mp hread
  obtain ⟨bindings, -, hread⟩ := Fault.bind_eq_ok_iff.mp hread
  obtain rfl := Except.ok.inj hread
  have hnormal := isNormal_of_rootPathOf hcurrent hrootPath
  refine ⟨hnormal, fun root hroot => ?_⟩
  obtain ⟨real, hreal, rfl⟩ := List.mem_map.mp hroot
  split at hreal
  · rw [List.mem_singleton.mp hreal]
    exact hnormal
  · rw [Fault.mapM_eq_ok_iff] at hroots
    obtain ⟨value, -, hvalue⟩ := List.mem_map.mp (hroots ▸ List.mem_map_of_mem hreal)
    exact isNormal_of_rootOf hcurrent hnormal hvalue

end Settings

end Stylesheets
