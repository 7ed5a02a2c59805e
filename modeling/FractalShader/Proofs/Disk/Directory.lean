import FractalShader.Disk.Access

/-!
# Paths that lead to directories

A path is either refused for its spelling, which no disk can change, or followed
piece by piece.

* `locate_of_fault`, `locate_of_usable` — the two cases;
* `find_of_directoryAt`, `directoryAt_of_find` — a path that may be spelled so
  is that of a directory exactly when all its pieces lead through directories;
* `Keeps` — no directory is lost from one disk to another; a path that leads to
  a directory goes on leading there (`directoryAt_keeps`).
-/

namespace FractalShader

namespace Path

/-- Why a path is refused for its spelling, whatever the disk holds. -/
def fault? (p : Path) : Option OsError :=
  if '\x00' ∈ p.text.toList then some .nulInPath
  else if p.text = "" then some .notFound
  else if Disk.greatestPath < p.text.utf8ByteSize then some .nameTooLong
  else none

theorem fault?_eq_none_iff {p : Path} (hne : p.text ≠ "") : p.fault? = none ↔
    '\x00' ∉ p.text.toList ∧ p.text.utf8ByteSize ≤ Disk.greatestPath := by
  unfold fault?
  rw [if_neg hne, ← Nat.not_lt]
  by_cases hnull : '\x00' ∈ p.text.toList
  · simp [hnull]
  · by_cases hlong : Disk.greatestPath < p.text.utf8ByteSize
    · simp [hnull, hlong]
    · simp [hnull, hlong]

end Path

namespace Disk

/-! ## Directories -/

/-- Where following a path begins. -/
def startOf (d : Disk) (p : Path) : Place := if p.isAbsolute then [] else d.home

/-- The directory to which all the pieces of `p` lead. -/
def directoryAt (d : Disk) (p : Path) : Except OsError Place :=
  d.walk (d.startOf p) (pieces p.text.toList)

theorem node?_tail (d : Disk) {p : Place} (h : d.node? p = some .directory) :
    d.node? p.tail = some .directory := by
  cases p with
  | nil => exact h
  | cons name dir => exact d.rooted name dir (by rw [← node?, h]; simp)

/-- All that leads to a directory is directories. -/
theorem node?_of_suffix {d : Disk} {p q : Place} (h : p <:+ q)
    (hq : d.node? q = some .directory) : d.node? p = some .directory := by
  obtain ⟨below, rfl⟩ := h
  induction below with
  | nil => exact hq
  | cons name below ih => exact ih (d.node?_tail hq)

theorem node?_nil (d : Disk) : d.node? [] = some .directory :=
  node?_of_suffix List.nil_suffix d.node?_home

theorem node?_startOf (d : Disk) (p : Path) : d.node? (d.startOf p) = some .directory := by
  unfold startOf
  split
  · exact d.node?_nil
  · exact d.node?_home

theorem node?_directoryAt {d : Disk} {p : Path} {dir : Place} (h : d.directoryAt p = .ok dir) :
    d.node? dir = some .directory :=
  walk_directory (d.node?_startOf p) h

theorem walk_singleton (d : Disk) (dir : Place) (piece : String) :
    d.walk dir [piece] = d.enter dir piece := by
  simp only [walk]
  cases d.enter dir piece <;> rfl

theorem walk_concat {d : Disk} {dir next : Place} {xs : List String} (x : String)
    (h : d.walk dir xs = .ok next) : d.walk dir (xs ++ [x]) = d.enter next x := by
  rw [walk_append, h]
  exact d.walk_singleton next x

/-! ## Keeping directories -/

/-- Nothing that is a directory of `d` is anything else in `d'`. -/
structure Keeps (d d' : Disk) : Prop where
  home : d'.home = d.home
  directory : ∀ p, d.node? p = some .directory → d'.node? p = some .directory

theorem Keeps.refl (d : Disk) : d.Keeps d := ⟨rfl, fun _ h => h⟩

theorem Keeps.trans {a b c : Disk} (h₁ : a.Keeps b) (h₂ : b.Keeps c) : a.Keeps c :=
  ⟨h₂.home.trans h₁.home, fun p h => h₂.directory p (h₁.directory p h)⟩

theorem enter_keeps {d d' : Disk} (h : d.Keeps d') {dir next : Place} {piece : String}
    (he : d.enter dir piece = .ok next) : d'.enter dir piece = .ok next := by
  unfold enter at he ⊢
  by_cases hhere : piece = "."
  · simpa only [hhere, if_true] using he
  · by_cases hup : piece = ".."
    · simpa only [hup, if_true] using he
    · simp only [hhere, hup, if_false] at he ⊢
      split at he
      · exact absurd he (by simp)
      · exact absurd he (by simp)
      · exact absurd he (by simp)
      · next hl =>
        obtain ⟨hsize, hnode⟩ := lookUp_eq_ok_iff.mp hl
        rw [lookUp_eq_ok_iff.mpr ⟨hsize, h.directory _ hnode⟩]
        exact he

theorem walk_keeps {d d' : Disk} (h : d.Keeps d') {dir next : Place} {xs : List String}
    (hw : d.walk dir xs = .ok next) : d'.walk dir xs = .ok next := by
  induction xs generalizing dir with
  | nil => exact hw
  | cons x xs ih =>
    simp only [walk] at hw ⊢
    split at hw
    · next hx =>
      rw [enter_keeps h hx]
      exact ih hw
    · exact absurd hw (by simp)

theorem startOf_keeps {d d' : Disk} (h : d.Keeps d') (p : Path) : d'.startOf p = d.startOf p := by
  rw [startOf, startOf, h.home]

theorem directoryAt_keeps {d d' : Disk} (h : d.Keeps d') {p : Path} {dir : Place}
    (hd : d.directoryAt p = .ok dir) : d'.directoryAt p = .ok dir := by
  rw [directoryAt, startOf_keeps h]
  exact walk_keeps h hd

/-! ## Locating -/

theorem locate_of_fault {d : Disk} {p : Path} {e : OsError} (h : p.fault? = some e) :
    d.locate p = .error e := by
  unfold Path.fault? at h
  unfold locate
  split at h
  · next h0 => rw [if_pos h0, Option.some.inj h]
  · next h0 =>
    split at h
    · next h1 => rw [if_neg h0, if_pos h1, Option.some.inj h]
    · next h1 =>
      split at h
      · next h2 => rw [if_neg h0, if_neg h1, if_pos h2, Option.some.inj h]
      · exact absurd h (by simp)

theorem locate_of_usable {d : Disk} {p : Path} (h : p.fault? = none) :
    d.locate p = match (pieces p.text.toList).getLast? with
      | none => .ok (.directory (d.startOf p))
      | some last => match d.walk (d.startOf p) (pieces p.text.toList).dropLast with
        | .error e => .error e
        | .ok dir => .ok (if last = "." then .directory dir
            else if last = ".." then .directory dir.tail
            else .entry dir last (decide (p.text.toList.getLast? = some '/'))) := by
  unfold Path.fault? at h
  unfold locate startOf
  split at h
  · exact absurd h (by simp)
  · next h0 =>
    split at h
    · exact absurd h (by simp)
    · next h1 =>
      split at h
      · exact absurd h (by simp)
      · next h2 =>
        rw [if_neg h0, if_neg h1, if_neg h2]
        cases (pieces p.text.toList).getLast? with
        | none => rfl
        | some last =>
          simp only
          generalize d.walk _ _ = r
          cases r with
          | error e => rfl
          | ok dir =>
            by_cases hhere : last = "."
            · simp [hhere]
            · by_cases hup : last = ".."
              · simp [hup]
              · simp [hhere, hup]

/-! ## Paths of directories -/

/-- The last piece of a path is asked for in the directory to which the others lead. -/
theorem locate_eq_ok {d : Disk} {p : Path} {spot : Spot} (h : d.locate p = .ok spot) :
    (pieces p.text.toList = [] ∧ spot = .directory (d.startOf p)) ∨
      ∃ xs last dir, pieces p.text.toList = xs ++ [last] ∧ d.walk (d.startOf p) xs = .ok dir ∧
        spot = if last = "." then .directory dir
          else if last = ".." then .directory dir.tail
          else .entry dir last (decide (p.text.toList.getLast? = some '/')) := by
  cases hf : p.fault? with
  | some e => rw [locate_of_fault hf] at h; exact absurd h (by simp)
  | none =>
    rw [locate_of_usable hf] at h
    cases hl : (pieces p.text.toList).getLast? with
    | none =>
      rw [hl] at h
      exact .inl ⟨List.getLast?_eq_none_iff.mp hl, (Except.ok.inj h).symm⟩
    | some last =>
      obtain ⟨xs, hxs⟩ := List.getLast?_eq_some_iff.mp hl
      rw [hl, hxs, List.dropLast_concat] at h
      cases hw : d.walk (d.startOf p) xs with
      | error e => rw [hw] at h; exact absurd h (by simp)
      | ok dir =>
        rw [hw] at h
        exact .inr ⟨xs, last, dir, hxs, hw, (Except.ok.inj h).symm⟩

/-- A path that is not refused for its spelling and leads through directories only is that of a
directory. -/
theorem find_of_directoryAt {d : Disk} {p : Path} {q : Place} (hf : p.fault? = none)
    (h : d.directoryAt p = .ok q) : d.find p = .ok (q, .directory) := by
  rw [find, locate_of_usable hf]
  cases hl : (pieces p.text.toList).getLast? with
  | none =>
    rw [directoryAt, List.getLast?_eq_none_iff.mp hl] at h
    cases h
    rfl
  | some last =>
    obtain ⟨xs, hxs⟩ := List.getLast?_eq_some_iff.mp hl
    rw [directoryAt, hxs, walk_append] at h
    simp only [hxs, List.dropLast_concat]
    cases hw : d.walk (d.startOf p) xs with
    | error e => rw [hw] at h; exact absurd h (by simp)
    | ok dir =>
      rw [hw] at h
      simp only [walk_singleton, enter] at h
      by_cases hhere : last = "."
      · simpa [hhere] using h
      · by_cases hup : last = ".."
        · simpa [hup] using h
        · simp only [hhere, hup, if_false] at h ⊢
          split at h
          · exact absurd h (by simp)
          · exact absurd h (by simp)
          · exact absurd h (by simp)
          · next hlook =>
            rw [hlook]
            simpa using h

/-- A path of a directory leads through all its pieces. -/
theorem directoryAt_of_find {d : Disk} {p : Path} {q : Place}
    (h : d.find p = .ok (q, .directory)) : d.directoryAt p = .ok q := by
  unfold find at h
  split at h
  · exact absurd h (by simp)
  · next place hl =>
    cases h
    rcases locate_eq_ok hl with ⟨hps, hspot⟩ | ⟨xs, last, dir, hps, hw, hspot⟩
    · cases hspot
      rw [directoryAt, hps]
      rfl
    · rw [directoryAt, hps, walk_concat last hw, enter]
      by_cases hhere : last = "."
      · rw [if_pos hhere] at hspot ⊢
        rw [Spot.directory.inj hspot]
      · rw [if_neg hhere] at hspot ⊢
        by_cases hup : last = ".."
        · rw [if_pos hup] at hspot ⊢
          rw [Spot.directory.inj hspot]
        · rw [if_neg hup] at hspot
          exact absurd hspot (by simp)
  · next dir name slash hl =>
    rcases locate_eq_ok hl with ⟨_, hspot⟩ | ⟨xs, last, dir', hps, hw, hspot⟩
    · exact absurd hspot (by simp)
    · by_cases hhere : last = "."
      · simp [hhere] at hspot
      · by_cases hup : last = ".."
        · simp [hup] at hspot
        · simp only [hhere, hup, if_false, Spot.entry.injEq] at hspot
          obtain ⟨rfl, rfl, -⟩ := hspot
          rw [directoryAt, hps, walk_concat name hw, enter, if_neg hhere, if_neg hup]
          cases hlook : d.lookUp dir name with
          | error e => simp [hlook] at h
          | ok x =>
            rw [hlook] at h
            rcases x with _ | _ | content
            · simp at h
            · simp only [Except.ok.injEq, Prod.mk.injEq, and_true] at h
              exact congrArg Except.ok h
            · cases slash <;> simp at h

end Disk

end FractalShader
