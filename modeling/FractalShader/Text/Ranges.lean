/-!
# Ranges of characters

A class of characters, given by ranges of their numbers.

* `contains_iff` — a character belongs to the class when some range holds its number;
* `toNat_of_isAlphanum` — the letters and digits that are known to `Char` fill three ranges.
-/

namespace FractalShader

/-- Ranges of numbers, each given by its first and its last number. -/
abbrev CharRanges := List (Nat × Nat)

/-- Does one of the ranges hold the number of `c`? -/
def CharRanges.contains (rs : CharRanges) (c : Char) : Bool :=
  rs.any fun r => r.1 ≤ c.toNat && c.toNat ≤ r.2

theorem CharRanges.contains_iff {rs : CharRanges} {c : Char} :
    rs.contains c = true ↔ ∃ r ∈ rs, r.1 ≤ c.toNat ∧ c.toNat ≤ r.2 := by
  simp [CharRanges.contains]

theorem toNat_of_isAlphanum {c : Char} (h : c.isAlphanum = true) :
    (0x30 ≤ c.toNat ∧ c.toNat ≤ 0x39) ∨ (0x41 ≤ c.toNat ∧ c.toNat ≤ 0x5A)
      ∨ (0x61 ≤ c.toNat ∧ c.toNat ≤ 0x7A) := by
  rcases Bool.or_eq_true_iff.1 h with h | h
  · rcases Bool.or_eq_true_iff.1 h with h | h
    · exact .inr (.inl (of_decide_eq_true h))
    · obtain ⟨hl, hu⟩ := Bool.and_eq_true_iff.1 h
      exact .inr (.inr ⟨of_decide_eq_true hl, of_decide_eq_true hu⟩)
  · obtain ⟨hl, hu⟩ := Bool.and_eq_true_iff.1 h
    exact .inl ⟨of_decide_eq_true hl, of_decide_eq_true hu⟩

end FractalShader
