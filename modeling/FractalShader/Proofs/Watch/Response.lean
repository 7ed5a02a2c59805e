import FractalShader.Proofs.Action.Steps
import FractalShader.Proofs.Path.Ancestors
import FractalShader.Proofs.Store.Files
import FractalShader.Watch

/-!
# How a watcher responds

A report of a created or a modified file is answered by regenerating every preset whose
document one of its paths is.  A regeneration that fails is reported and nothing else,
so the next one starts from whatever disk it left behind.

* `mem_affected` — which presets a report is about;
* `nameForDocument_eq_some` — a path is that of a document when it has its components;
* `run_regenerate`, `run_regenerateAll` — a response never fails, and on the disk it is
  the regenerations one after another.
-/

namespace FractalShader

open FractalShader.Action

/-- A path that is taken for the document of a preset has the components of its path, and the
name can be used. -/
theorem Store.nameForDocument_eq_some {s : Store} {p : Path} {name : String}
    (h : s.nameForDocument p = some name) :
    PresetName.IsValid name ∧ p.components = (s.documentPath name).components := by
  simp only [nameForDocument, Option.bind_eq_bind, Option.bind_eq_some_iff,
    dropSuffix?_eq_some_iff] at h
  obtain ⟨file, hfile, stem, rfl, name', rfl, h⟩ := h
  split at h
  · next hv =>
    cases h
    refine ⟨hv, ?_⟩
    have hcomponents := Path.nameIn?_eq_some_iff.mp hfile
    -- the extension is part of a component, so it holds no slash
    have hslash : '/' ∉ (name ++ "_Conf" ++ ("." ++ s.settings.documentExt)).toList :=
      Path.slash_not_mem_component (p := p) (by rw [hcomponents]; simp)
    have hentry : IsEntryName (name ++ "_Conf" ++ "." ++ s.settings.documentExt) := by
      apply isEntryName_dot hv.isStem_conf
      intro hc
      apply hslash
      simp [hc]
    rw [hcomponents, documentPath, documentFile, Path.components_join hentry,
      ← String.append_assoc]
  · exact absurd h (by simp)

namespace Watch

variable {s : Store} {c : Change} {name : String} {strict : Bool}

theorem mem_affected : name ∈ affected s c ↔
    (c.kind = .create ∨ c.kind = .modify) ∧ ∃ p ∈ c.paths, s.nameForDocument p = some name := by
  unfold affected
  split
  · next h =>
    rw [List.mem_mergeSort, List.mem_eraseDups, List.mem_filterMap]
    simp [h]
  · next h => simp [h]

/-- A report about one document is about one preset. -/
theorem affected_of_document {p : Path} {kind : ChangeKind} (hkind : kind = .create ∨ kind = .modify)
    (h : s.nameForDocument p = some name) : affected s ⟨kind, [p]⟩ = [name] := by
  rw [affected, if_pos hkind, List.filterMap_cons, h]
  exact List.mergeSort_singleton name

/-! ## Regenerations in a row -/

/-- A regeneration is tried and reported; it never fails, and on the disk it is what the store
does. -/
theorem run_regenerate (s : Store) (strict : Bool) (name : String) (d : Disk) :
    ((regenerate s strict name).run d).result = .ok () ∧
      ((regenerate s strict name).run d).disk = ((s.regenerate name strict).run d).disk := by
  unfold regenerate
  cases hr : ((s.regenerate name strict).run d).result with
  | ok published =>
    have hattempt : ((s.regenerate name strict).attempt.run d).result = .ok (.ok published) :=
      congrArg Except.ok hr
    rw [run_bind_ok hattempt]
    exact ⟨rfl, rfl⟩
  | error e =>
    have hattempt : ((s.regenerate name strict).attempt.run d).result = .ok (.error e) :=
      congrArg Except.ok hr
    rw [run_bind_ok hattempt]
    exact ⟨rfl, rfl⟩

/-- Regenerations in a row never fail, and each starts from the disk that the ones before it left
behind, whether they succeeded or not. -/
theorem run_regenerateAll (s : Store) (strict : Bool) (names : List String) (d : Disk) :
    ((regenerateAll s strict names).run d).result = .ok () ∧
      ((regenerateAll s strict names).run d).disk =
        names.foldl (fun d name => ((s.regenerate name strict).run d).disk) d := by
  induction names generalizing d with
  | nil => exact ⟨rfl, rfl⟩
  | cons name names ih =>
    obtain ⟨hresult, hdisk⟩ := run_regenerate s strict name d
    rw [regenerateAll, run_bind_ok hresult, hdisk]
    exact ih _

end Watch

end FractalShader
