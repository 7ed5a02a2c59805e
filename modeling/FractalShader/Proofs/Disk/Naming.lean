import FractalShader.Proofs.Disk.Making
import FractalShader.Proofs.Disk.Reach

/-!
# What a path names

A report about a file need not spell its path as the file was reached.  What a path
*names* is found from its components alone: all but the last lead through directories,
and the last is the name of an entry of the directory where they end.  Neither the
length of the path counts, nor a slash at its end, nor whether anything stands there.

* `names_of_locate` — a path names the entry to which it leads;
* `Names.unique` — paths of the same components name the same place;
* `Names.keeps` — what a path names does not change as long as directories stay.
-/

namespace FractalShader

/-- Two paths of the same components begin in the same place and take the same steps. -/
theorem Path.steps_eq_of_components {p p' : Path} (h : p.components = p'.components) :
    p.isAbsolute = p'.isAbsolute ∧ p.steps = p'.steps := by
  constructor
  · rw [Bool.eq_iff_iff, isAbsolute_iff, isAbsolute_iff, h]
  · rw [steps_eq_filterMap, steps_eq_filterMap, h]

namespace Disk

variable {d d' : Disk} {p p' : Path} {q q' dir : Place} {file : String} {slash : Bool}

/-- The components of `p` lead to the entry at the place `q`. -/
def Names (d : Disk) (p : Path) (q : Place) : Prop :=
  ∃ front file dir, p.steps = front ++ [file] ∧ file ≠ ".." ∧
    d.walk (d.startOf p) front = .ok dir ∧ q = file :: dir

theorem names_of_locate (h : d.locate p = .ok (.entry dir file slash)) :
    d.Names p (file :: dir) := by
  rcases locate_eq_ok h with ⟨-, hspot⟩ | ⟨xs, last, place, hpieces, hwalk, hspot⟩
  · exact absurd hspot (by simp)
  · by_cases hhere : last = "."
    · simp [hhere] at hspot
    · by_cases hup : last = ".."
      · simp [hup] at hspot
      · rw [if_neg hhere, if_neg hup] at hspot
        obtain ⟨rfl, rfl, -⟩ := Spot.entry.inj hspot
        refine ⟨xs.filter (· ≠ "."), file, dir, ?_, hup, ?_, rfl⟩
        · rw [Path.steps, hpieces, List.filter_append,
            List.filter_cons_of_pos (by simpa using hhere)]
          rfl
        · rw [walk_filter_here, hwalk]

theorem Names.unique (h : d.Names p q) (h' : d.Names p' q')
    (hc : p.components = p'.components) : q = q' := by
  obtain ⟨front, file, dir, hsteps, -, hwalk, rfl⟩ := h
  obtain ⟨front', file', dir', hsteps', -, hwalk', rfl⟩ := h'
  obtain ⟨habsolute, hsame⟩ := Path.steps_eq_of_components hc
  rw [hsteps, hsteps'] at hsame
  obtain ⟨rfl, hfile⟩ := List.append_inj' hsame rfl
  obtain rfl := List.singleton_inj.mp hfile
  rw [startOf, habsolute] at hwalk
  obtain rfl := Except.ok.inj (hwalk.symm.trans hwalk')
  rfl

theorem Names.keeps (h : d.Names p q) (hd : d.Keeps d') : d'.Names p q := by
  obtain ⟨front, file, dir, hsteps, hup, hwalk, rfl⟩ := h
  refine ⟨front, file, dir, hsteps, hup, ?_, rfl⟩
  rw [startOf_keeps hd]
  exact walk_keeps hd hwalk

end Disk

end FractalShader
