import FractalShader.Error
import FractalShader.Text.WhiteSpace

/-!
# Preset names

A preset name becomes part of file names, so it must be a single plain path
component.

* `slash_not_mem`, `ne_empty` — what an accepted name can be relied on for.
-/

namespace FractalShader.PresetName

/-- What is wrong with a name, if anything is; of several faults the first in this order. -/
def fault? (name : String) : Option NameFault :=
  if name = "" then some .empty
  else if name = "." ∨ name = ".." then some .relative
  else if '/' ∈ name.toList ∨ '\\' ∈ name.toList ∨ '\x00' ∈ name.toList then some .separator
  else if isPadded name.toList then some .padded
  else none

/-- Can this name be used for a preset? -/
def IsValid (name : String) : Prop := fault? name = none

instance (name : String) : Decidable (IsValid name) := inferInstanceAs (Decidable (_ = _))

/-- Refuse a name that cannot be used. -/
def check (name : String) : Except PresetError Unit :=
  match fault? name with
  | none => .ok ()
  | some fault => .error (.invalidName name fault)

theorem check_eq_ok_iff {name : String} : check name = .ok () ↔ IsValid name := by
  unfold check IsValid
  cases fault? name <;> simp

theorem IsValid.ne_empty {name : String} (h : IsValid name) : name ≠ "" := by
  rintro rfl
  exact absurd h (by decide)

theorem IsValid.slash_not_mem {name : String} (h : IsValid name) : '/' ∉ name.toList := by
  intro hs
  unfold IsValid fault? at h
  grind

end FractalShader.PresetName
