import FractalShader.Proofs.Session.Turns
import Mathlib.Data.List.InsertIdx
import Mathlib.Data.List.Perm.Basic

/-!
# Edits of a chain

An entry that is inserted can be removed again at its index, and one that is removed can
be put back.  A move is a removal and an insertion one after the other, so it can be made
in the other direction.  An edit is refused when an index that it names is out of range,
and then it has changed nothing.

* `insert_eq_ok_iff`, `removeAt_eq_ok_iff`, `move_eq_ok_iff` — what each edit leads to;
* `removeAt_of_insert`, `insert_of_removeAt`, `move_of_move` — what undoes it;
* `Edit.firstOutOfRange?`, `apply_eq_error_iff` — which edits are refused, and why;
* `edits_can_be_undone` — all of it, for every chain and all indices.
-/

namespace FractalShader

namespace Config

variable {c c' rest : Config} {i j : Nat} {k : FoldKind} {err : PresetError}

/-! ## Insertion and removal -/

theorem insert_eq_ok_iff : c.insert i k = .ok c' ↔ i ≤ c.operations.length ∧
    c' = { c with operations := c.operations.insertIdx i k } := by
  rw [insert]
  split
  · next h => simp [h, eq_comm]
  · next h => simp [h]

theorem insert_eq_error_iff :
    c.insert i k = .error err ↔ c.operations.length < i ∧ err = c.outOfRange i := by
  rw [insert]
  split
  · next h => simp [Nat.not_lt.mpr h]
  · next h => simp [Nat.not_le.mp h, eq_comm]

theorem removeAt_eq_ok_iff : c.removeAt i = .ok (k, c') ↔ c.operations[i]? = some k ∧
    c' = { c with operations := c.operations.eraseIdx i } := by
  rw [removeAt]
  split
  · next h => simp [h, eq_comm]
  · next h => simp [h]

theorem removeAt_eq_error_iff :
    c.removeAt i = .error err ↔ c.operations.length ≤ i ∧ err = c.outOfRange i := by
  rw [removeAt]
  split
  · next h => simp [Nat.not_le.mpr (List.getElem?_eq_some_iff.mp h).1]
  · next h => simp [List.getElem?_eq_none_iff.mp h, eq_comm]

/-- What was inserted is removed again. -/
theorem removeAt_of_insert (h : c.insert i k = .ok c') : c'.removeAt i = .ok (k, c) := by
  obtain ⟨hi, rfl⟩ := insert_eq_ok_iff.mp h
  rw [removeAt_eq_ok_iff]
  exact ⟨by rw [List.getElem?_insertIdx_self, if_pos hi], by rw [List.eraseIdx_insertIdx_self]⟩

/-- What was removed is put back. -/
theorem insert_of_removeAt (h : c.removeAt i = .ok (k, c')) : c'.insert i k = .ok c := by
  obtain ⟨hk, rfl⟩ := removeAt_eq_ok_iff.mp h
  obtain ⟨hi, rfl⟩ := List.getElem?_eq_some_iff.mp hk
  rw [insert_eq_ok_iff, List.insertIdx_eraseIdx_getElem hi, List.length_eraseIdx_of_lt hi]
  exact ⟨Nat.le_sub_one_of_lt hi, rfl⟩

/-! ## Moves -/

/-- To move an entry is to remove it and to insert it elsewhere. -/
theorem move_eq_ok_iff : c.move i j = .ok c' ↔
    ∃ k rest, c.removeAt i = .ok (k, rest) ∧ rest.insert j k = .ok c' := by
  simp only [removeAt_eq_ok_iff, insert_eq_ok_iff]
  constructor
  · intro h
    rw [move] at h
    split at h
    · cases h
    · next k hk =>
      split at h
      · next hj =>
        cases h
        refine ⟨k, _, ⟨hk, rfl⟩, ?_, rfl⟩
        rw [List.length_eraseIdx_of_lt (List.getElem?_eq_some_iff.mp hk).1]
        exact Nat.le_sub_one_of_lt hj
      · cases h
  · rintro ⟨k, _, ⟨hk, rfl⟩, hj, rfl⟩
    have hi := (List.getElem?_eq_some_iff.mp hk).1
    rw [List.length_eraseIdx_of_lt hi] at hj
    have hlt : j < c.operations.length := by omega
    rw [move, hk]
    simp only [if_pos hlt]

/-- The source is looked at before the target. -/
theorem move_eq_error_iff : c.move i j = .error err ↔
    c.operations.length ≤ i ∧ err = c.outOfRange i ∨
      i < c.operations.length ∧ c.operations.length ≤ j ∧ err = c.outOfRange j := by
  rw [move]
  split
  · next h =>
    have hi := List.getElem?_eq_none_iff.mp h
    simp [hi, Nat.not_lt.mpr hi, eq_comm]
  · next h =>
    have hi := (List.getElem?_eq_some_iff.mp h).1
    split
    · next hj => simp [Nat.not_le.mpr hi, Nat.not_le.mpr hj]
    · next hj => simp [hi, Nat.not_le.mpr hi, Nat.not_lt.mp hj, eq_comm]

/-- What was moved is moved back. -/
theorem move_of_move (h : c.move i j = .ok c') : c'.move j i = .ok c := by
  obtain ⟨k, rest, hremoved, hinserted⟩ := move_eq_ok_iff.mp h
  exact move_eq_ok_iff.mpr
    ⟨k, rest, removeAt_of_insert hinserted, insert_of_removeAt hremoved⟩

/-- What a move from `source` to `target` makes of a configuration. -/
structure Moved (c c' : Config) (source target : Nat) : Prop where
  name : c'.name = c.name
  terminal : c'.terminal = c.terminal
  entry : c'.operations[target]? = c.operations[source]?
  /-- All other entries are there, in their order. -/
  others : c'.operations.eraseIdx target = c.operations.eraseIdx source
  perm : c'.operations.Perm c.operations
  back : c'.move target source = .ok c

theorem moved_of_move (h : c.move i j = .ok c') : Moved c c' i j := by
  obtain ⟨k, rest, hremoved, hinserted⟩ := move_eq_ok_iff.mp h
  obtain ⟨hentry, hrest⟩ := removeAt_eq_ok_iff.mp hremoved
  obtain ⟨hentry', hrest'⟩ := removeAt_eq_ok_iff.mp (removeAt_of_insert hinserted)
  -- what is left without the entry is the same on both sides
  have hsame := hrest'.symm.trans hrest
  rw [Config.mk.injEq] at hsame
  obtain ⟨hname, hothers, hterminal⟩ := hsame
  refine ⟨hname, hterminal, hentry'.trans hentry.symm, hothers, ?_, move_of_move h⟩
  obtain ⟨hj, rfl⟩ := insert_eq_ok_iff.mp hinserted
  obtain ⟨hi, heq⟩ := insert_eq_ok_iff.mp (insert_of_removeAt hremoved)
  have hchain : c.operations = rest.operations.insertIdx i k := congrArg operations heq
  rw [hchain]
  exact (List.perm_insertIdx k _ hj).trans (List.perm_insertIdx k _ hi).symm

/-! ## Edits that are refused -/

end Config

/-- The indices that an edit of a chain of this length names, in the order in which they are looked
at, each with the first number that is too high for it. -/
def Edit.limits (length : Nat) : Edit → List (Nat × Nat)
  | .insert index _ => [(index, length + 1)]
  | .removeAt index => [(index, length)]
  | .move source target => [(source, length), (target, length)]
  | .push _ | .clear | .setTerminal _ | .setOperations _ | .setName _ => []

/-- The first of these indices that is out of range. -/
def Edit.firstOutOfRange? (length : Nat) (e : Edit) : Option Nat :=
  ((e.limits length).find? fun p => p.2 ≤ p.1).map Prod.fst

namespace Config

variable {c c' : Config} {e : Edit} {err : PresetError}

theorem map_eq_ok_iff {α β : Type} {f : α → β} {r : Except PresetError α} {b : β} :
    r.map f = .ok b ↔ ∃ a, r = .ok a ∧ f a = b := by
  cases r <;> simp [Except.map]

theorem map_eq_error_iff {α β : Type} {f : α → β} {r : Except PresetError α} :
    r.map f = .error err ↔ r = .error err := by
  cases r <;> simp [Except.map]

/-- Of a single index it is found out whether it is too high. -/
theorem find?_single (i limit : Nat) :
    ([(i, limit)].find? fun p => p.2 ≤ p.1).map Prod.fst = if limit ≤ i then some i else none := by
  by_cases h : limit ≤ i <;> simp [h]

/-- An edit is refused exactly where an index is out of range, for the first one that is. -/
theorem apply_eq_error_iff : c.apply e = .error err ↔
    ∃ i, e.firstOutOfRange? c.operations.length = some i ∧
      err = .indexOutOfRange i c.operations.length := by
  cases e with
  | push | clear | setTerminal | setOperations | setName =>
    simp [apply, Edit.firstOutOfRange?, Edit.limits]
  | insert i k =>
    rw [apply, map_eq_error_iff, insert_eq_error_iff, Edit.firstOutOfRange?, Edit.limits,
      find?_single]
    by_cases h : c.operations.length < i
    · rw [if_pos (Nat.succ_le_of_lt h)]
      simp [outOfRange, h]
    · rw [if_neg (mt Nat.lt_of_succ_le h)]
      simp [h]
  | removeAt i =>
    rw [apply, map_eq_error_iff, removeAt_eq_error_iff, Edit.firstOutOfRange?, Edit.limits,
      find?_single]
    by_cases h : c.operations.length ≤ i <;> simp [outOfRange, h]
  | move i j =>
    rw [apply, map_eq_error_iff, move_eq_error_iff]
    by_cases hi : c.operations.length ≤ i
    · simp [Edit.firstOutOfRange?, Edit.limits, outOfRange, hi, Nat.not_lt.mpr hi]
    · by_cases hj : c.operations.length ≤ j <;>
        simp [Edit.firstOutOfRange?, Edit.limits, outOfRange, hi, hj, Nat.not_le.mp hi]

/-! ## Edits that succeed -/

theorem exists_ok_iff {α : Type} {r : Except PresetError α} :
    (∃ a, r = .ok a) ↔ ∀ err, r ≠ .error err := by
  cases r <;> simp

theorem exists_insert_iff {i : Nat} {k : FoldKind} :
    (∃ c', c.insert i k = .ok c') ↔ i ≤ c.operations.length := by
  simp [exists_ok_iff, insert_eq_error_iff]

theorem exists_removeAt_iff {i : Nat} :
    (∃ r, c.removeAt i = .ok r) ↔ i < c.operations.length := by
  simp [exists_ok_iff, removeAt_eq_error_iff]

theorem exists_move_iff {i j : Nat} :
    (∃ c', c.move i j = .ok c') ↔ i < c.operations.length ∧ j < c.operations.length := by
  rw [exists_ok_iff]
  simp only [ne_eq, move_eq_error_iff, not_or, not_and, forall_and]
  constructor
  · rintro ⟨hi, hj⟩
    have hlt : i < c.operations.length := Nat.not_le.mp fun h => hi _ h rfl
    exact ⟨hlt, Nat.not_le.mp fun h => hj _ hlt h rfl⟩
  · rintro ⟨hi, hj⟩
    exact ⟨fun _ h => absurd hi (Nat.not_lt.mpr h), fun _ _ h => absurd hj (Nat.not_lt.mpr h)⟩

end Config

/-- **Edits of a chain can be undone, and refused ones have done nothing.**  For every configuration
and all indices: an entry is moved exactly when both indices are in range, and then it alone has
changed its place and is moved back by the opposite move; an entry is inserted exactly up to the end
of the chain, and then it is the one that is removed at its index, which leads back; an entry is
removed exactly when there is one, and then inserting it where it was leads back.  An edit is
refused exactly for the first of its indices that is out of range, with the length of the chain, and
a session that is told to make it keeps its configuration. -/
theorem Config.edits_can_be_undone (c : Config) :
    (∀ i j, ((∃ c', c.move i j = .ok c') ↔ i < c.operations.length ∧ j < c.operations.length) ∧
      ∀ c', c.move i j = .ok c' → Moved c c' i j) ∧
    (∀ i k, ((∃ c', c.insert i k = .ok c') ↔ i ≤ c.operations.length) ∧
      ∀ c', c.insert i k = .ok c' → c'.removeAt i = .ok (k, c)) ∧
    (∀ i, ((∃ r, c.removeAt i = .ok r) ↔ i < c.operations.length) ∧
      ∀ k c', c.removeAt i = .ok (k, c') →
        c.operations[i]? = some k ∧ c'.insert i k = .ok c) ∧
    ∀ e err, (c.apply e = .error err ↔ ∃ i, e.firstOutOfRange? c.operations.length = some i ∧
        err = .indexOutOfRange i c.operations.length) ∧
      (c.apply e = .error err → ∀ store d,
        (Session.mk store c).step (.edit e) d = (⟨store, c⟩, ⟨.error err, d, []⟩)) := by
  refine ⟨fun i j => ⟨exists_move_iff, fun c' => moved_of_move⟩,
    fun i k => ⟨exists_insert_iff, fun c' => removeAt_of_insert⟩,
    fun i => ⟨exists_removeAt_iff, fun k c' h => ⟨?_, insert_of_removeAt h⟩⟩,
    fun e err => ⟨apply_eq_error_iff, fun h store d => ?_⟩⟩
  · exact (removeAt_eq_ok_iff.mp h).1
  · rw [Session.step_edit, h]

/-- The last of three folds is put in front and moved back.  Of two indices that are out of range
the first is reported. -/
theorem Config.edits_can_be_undone_threeFolds :
    (⟨"Foo", [.boxFold, .sphereFold, .absFold], .box⟩ : Config).move 2 0 =
        .ok ⟨"Foo", [.absFold, .boxFold, .sphereFold], .box⟩ ∧
      (⟨"Foo", [.absFold, .boxFold, .sphereFold], .box⟩ : Config).move 0 2 =
        .ok ⟨"Foo", [.boxFold, .sphereFold, .absFold], .box⟩ ∧
      (⟨"Foo", [.boxFold, .sphereFold, .absFold], .box⟩ : Config).apply (.move 3 5) =
        .error (.indexOutOfRange 3 3) := by
  have hmove : (⟨"Foo", [.boxFold, .sphereFold, .absFold], .box⟩ : Config).move 2 0 =
      .ok ⟨"Foo", [.absFold, .boxFold, .sphereFold], .box⟩ := rfl
  obtain ⟨hmoves, -, -, hrefused⟩ :=
    edits_can_be_undone ⟨"Foo", [.boxFold, .sphereFold, .absFold], .box⟩
  exact ⟨hmove, ((hmoves 2 0).2 _ hmove).back, (hrefused (.move 3 5) _).1.mpr ⟨3, rfl, rfl⟩⟩

end FractalShader
