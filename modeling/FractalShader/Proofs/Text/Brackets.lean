import Mathlib.Data.List.Infix

/-!
# Brackets of a text

Read from left to right, a text opens and closes brackets.  What counts is how many are
open before it and after it, and that it never closes more than are open.

* `Nests` — the number of open brackets before and after a text;
* `Nests.append` — texts one after the other;
* `nests_of_scan` — the number that a single pass over the text finds;
* `Balanced` — a text that closes what it opens.
-/

namespace FractalShader

variable {opening closing : Char} {n m k : Nat} {cs ds : List Char}

/-- With `n` brackets open before it, the text never closes more than are open, and `m` are open
after it. -/
structure Nests (opening closing : Char) (n : Nat) (cs : List Char) (m : Nat) : Prop where
  never_below : ∀ before, before <+: cs → before.count closing ≤ n + before.count opening
  balance : n + cs.count opening = m + cs.count closing

theorem Nests.append (h₁ : Nests opening closing n cs m) (h₂ : Nests opening closing m ds k) :
    Nests opening closing n (cs ++ ds) k where
  never_below := by
    intro before hbefore
    have hbalance := h₁.balance
    -- what is read ends in the first text, or it is the first text and a part of the second
    rcases List.prefix_or_prefix_of_prefix hbefore (List.prefix_append cs ds) with hfirst | ⟨q, rfl⟩
    · exact h₁.never_below before hfirst
    · have hrest := h₂.never_below q ((List.prefix_append_right_inj cs).mp hbefore)
      simp only [List.count_append]
      omega
  balance := by
    have hbalance := h₁.balance
    have hrest := h₂.balance
    simp only [List.count_append]
    omega

/-- A text without brackets leaves open what is open. -/
theorem nests_of_not_mem (ho : opening ∉ cs) (hc : closing ∉ cs) :
    Nests opening closing n cs n where
  never_below := by
    intro before hbefore
    rw [List.count_eq_zero_of_not_mem fun hmem => hc (hbefore.subset hmem)]
    exact Nat.zero_le _
  balance := by
    rw [List.count_eq_zero_of_not_mem ho, List.count_eq_zero_of_not_mem hc]

/-- So does one that repeats a single character, which is no bracket. -/
theorem nests_replicate {ch : Char} (ho : opening ≠ ch) (hc : closing ≠ ch) :
    Nests opening closing n (List.replicate k ch) n :=
  nests_of_not_mem (fun h => ho (List.eq_of_mem_replicate h))
    fun h => hc (List.eq_of_mem_replicate h)

theorem nests_opening (hne : opening ≠ closing) : Nests opening closing n [opening] (n + 1) where
  never_below := by
    intro before hbefore
    rw [List.count_eq_zero_of_not_mem]
    · exact Nat.zero_le _
    · intro hmem
      exact hne (List.mem_singleton.mp (hbefore.subset hmem)).symm
  balance := by simp [hne]

theorem nests_closing (hne : opening ≠ closing) : Nests opening closing (n + 1) [closing] n where
  never_below := by
    intro before hbefore
    have hle : before.count closing ≤ [closing].count closing :=
      hbefore.sublist.count_le closing
    simp only [List.count_singleton_self] at hle
    omega
  balance := by simp [hne.symm]

/-! ## In a single pass -/

/-- The number of brackets that are open after a text, if it never closes more than are open. -/
def scan (opening closing : Char) : Nat → List Char → Option Nat
  | n, [] => some n
  | n, c :: cs =>
    if c = opening then scan opening closing (n + 1) cs
    else if c = closing then
      match n with
      | 0 => none
      | n + 1 => scan opening closing n cs
    else scan opening closing n cs

theorem nests_of_scan (hne : opening ≠ closing) (h : scan opening closing n cs = some m) :
    Nests opening closing n cs m := by
  induction cs generalizing n with
  | nil =>
    obtain rfl := Option.some.inj h
    exact nests_of_not_mem List.not_mem_nil List.not_mem_nil
  | cons c cs ih =>
    rw [scan.eq_def] at h
    dsimp only at h
    rw [← List.singleton_append]
    split at h
    · next hc =>
      subst hc
      exact (nests_opening hne).append (ih h)
    · next hopening =>
      split at h
      · next hc =>
        subst hc
        cases n with
        | zero => cases h
        | succ n => exact (nests_closing hne).append (ih h)
      · next hclosing =>
        refine Nests.append (nests_of_not_mem ?_ ?_) (ih h)
        · simpa [eq_comm] using hopening
        · simpa [eq_comm] using hclosing

/-! ## Balanced texts -/

/-- A text in which every bracket is closed, and none is closed before it is opened. -/
structure Balanced (opening closing : Char) (cs : List Char) : Prop where
  never_below : ∀ before, before <+: cs → before.count closing ≤ before.count opening
  balance : cs.count opening = cs.count closing

theorem balanced_iff : Balanced opening closing cs ↔ Nests opening closing 0 cs 0 := by
  constructor
  · rintro ⟨hbelow, hbalance⟩
    exact ⟨by simpa using hbelow, by simpa using hbalance⟩
  · rintro ⟨hbelow, hbalance⟩
    exact ⟨by simpa using hbelow, by simpa using hbalance⟩

end FractalShader
