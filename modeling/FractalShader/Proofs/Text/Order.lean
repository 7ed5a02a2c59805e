/-!
# Texts in order

Texts are put in the order of their code points.  A list without repetition is then
strictly increasing, and such a list is determined by its members.

* `pairwise_le_ordered`, `pairwise_lt_ordered` — what is put in order increases;
* `ordered_congr`, `eq_of_pairwise_lt` — what the result depends on;
* `nodup_eraseDups` — repetitions that are erased are gone.
-/

namespace FractalShader

variable {xs ys : List String}

theorem pairwise_le_ordered (xs : List String) :
    (xs.mergeSort fun a b => decide (a ≤ b)).Pairwise (· ≤ ·) := by
  have htrans : ∀ a b c : String,
      decide (a ≤ b) = true → decide (b ≤ c) = true → decide (a ≤ c) = true := fun a b c hab hbc =>
    decide_eq_true (String.le_trans (of_decide_eq_true hab) (of_decide_eq_true hbc))
  have htotal : ∀ a b : String, (decide (a ≤ b) || decide (b ≤ a)) = true := fun a b => by
    simpa using String.le_total a b
  exact (List.pairwise_mergeSort htrans htotal _).imp of_decide_eq_true

/-- Without repetition the order is strict. -/
theorem pairwise_lt_ordered (h : xs.Nodup) :
    (xs.mergeSort fun a b => decide (a ≤ b)).Pairwise (· < ·) := by
  refine (pairwise_le_ordered xs).imp₂ ?_ ((List.mergeSort_perm _ _).nodup_iff.mpr h)
  intro a b hle hne
  exact String.not_le.mp fun hge => hne (String.le_antisymm hle hge)

/-- The order in which the texts come does not count. -/
theorem ordered_congr (h : xs.Perm ys) :
    xs.mergeSort (fun a b => decide (a ≤ b)) = ys.mergeSort fun a b => decide (a ≤ b) := by
  have hperm := (List.mergeSort_perm xs fun a b => decide (a ≤ b)).trans
    (h.trans (List.mergeSort_perm ys fun a b => decide (a ≤ b)).symm)
  exact hperm.eq_of_pairwise (fun a b _ _ => String.le_antisymm) (pairwise_le_ordered xs)
    (pairwise_le_ordered ys)

/-- A strictly increasing list is determined by its members. -/
theorem eq_of_pairwise_lt (hx : xs.Pairwise (· < ·)) (hy : ys.Pairwise (· < ·))
    (h : ∀ a, a ∈ xs ↔ a ∈ ys) : xs = ys := by
  have hne : ∀ {a b : String}, a < b → a ≠ b := by
    rintro a _ hlt rfl
    exact String.lt_irrefl a hlt
  have hperm := (List.perm_ext_iff_of_nodup (hx.imp hne) (hy.imp hne)).mpr h
  exact hperm.eq_of_pairwise (fun a b _ _ hab hba => absurd hba (String.lt_asymm hab)) hx hy

/-- What is left of a list without its repetitions has none. -/
theorem nodup_eraseDups (xs : List String) : xs.eraseDups.Nodup := by
  induction h : xs.length using Nat.strongRecOn generalizing xs with
  | _ n ih =>
    cases xs with
    | nil => simp
    | cons x xs =>
      rw [List.eraseDups_cons, List.nodup_cons]
      have hshorter : (xs.filter fun y => !y == x).length < n :=
        h ▸ Nat.lt_succ_of_le (List.length_filter_le _ _)
      refine ⟨?_, ih _ hshorter _ rfl⟩
      rw [List.mem_eraseDups]
      simp

end FractalShader
