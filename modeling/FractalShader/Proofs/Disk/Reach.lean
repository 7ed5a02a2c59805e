import FractalShader.Proofs.Disk.Patch

/-!
# Files under any path

A path may lead to a file through any directories, over steps up as well, so two
different spellings can lead to one file.  What counts is the place to which a
path leads: a file that is written or removed is an entry there, and what stands
at any other place is spared.

* `locate_keeps` — where a path leads does not change as long as directories stay;
* `directoryAt_of_locate_relative` — what leads below a directory leads through it;
* `find_keeps`, `find_of_removed` — what is found after a change elsewhere, and
  after it was taken away;
* `readFile_eq_ok_iff`, `writeFile_eq_ok`, `removeFile_eq_ok` — reading, writing
  and removing, by place;
* `readFile_of_writeFile` — what was written is read;
* `Spares` — from one disk to another, no directory was made or lost, and one place
  is as it was; such a place is read as before (`Spares.readFile`).
-/

namespace FractalShader.Disk

variable {d d' d'' : Disk} {p : Path} {dir : Place} {file : String} {content : ByteArray}

/-! ## Where paths lead -/

/-- Only a path that may be spelled so leads anywhere. -/
theorem fault?_of_locate {spot : Spot} (hl : d.locate p = .ok spot) : p.fault? = none := by
  cases hf : p.fault? with
  | none => rfl
  | some e =>
    rw [locate_of_fault hf] at hl
    exact absurd hl (by simp)

theorem locate_keeps (h : d.Keeps d') {spot : Spot} (hl : d.locate p = .ok spot) :
    d'.locate p = .ok spot := by
  have hf := fault?_of_locate hl
  rw [locate_of_usable hf] at hl ⊢
  rw [startOf_keeps h]
  cases hlast : (pieces p.text.toList).getLast? with
  | none =>
    rw [hlast] at hl
    exact hl
  | some last =>
    rw [hlast] at hl
    simp only at hl ⊢
    cases hw : d.walk (d.startOf p) (pieces p.text.toList).dropLast with
    | error e =>
      rw [hw] at hl
      exact absurd hl (by simp)
    | ok dir =>
      rw [hw] at hl
      rw [walk_keeps h hw]
      exact hl

/-- The entry to which a path leads is in a directory. -/
theorem node?_of_locate {slash : Bool} (h : d.locate p = .ok (.entry dir file slash)) :
    d.node? dir = some .directory := by
  rcases locate_eq_ok h with ⟨-, hspot⟩ | ⟨xs, last, dir', -, hw, hspot⟩
  · exact absurd hspot (by simp)
  · have hdir := walk_directory (d.node?_startOf p) hw
    split at hspot
    · exact absurd hspot (by simp)
    · split at hspot
      · exact absurd hspot (by simp)
      · rwa [(Spot.entry.inj hspot).1]

/-- A path below a directory leads nowhere unless the directory is there. -/
theorem directoryAt_of_locate_relative {spot : Spot} (hrel : file.toList.head? ≠ some '/')
    (hpieces : pieces file.toList ≠ []) (hl : d.locate (p.join file) = .ok spot) :
    ∃ dir, d.directoryAt p = .ok dir := by
  have hstart : d.startOf (p.join file) = d.startOf p := by
    rw [startOf, startOf, Path.isAbsolute_join_of_relative hrel]
  obtain ⟨front, last, hfile⟩ := (List.eq_nil_or_concat (pieces file.toList)).resolve_left hpieces
  have hjoined := Path.pieces_join_of_relative (p := p) hrel
  rw [hfile, List.concat_eq_append, ← List.append_assoc] at hjoined
  rcases locate_eq_ok hl with ⟨hnil, -⟩ | ⟨xs, x, dir, hps, hw, -⟩
  · rw [hjoined] at hnil
    exact absurd hnil (by simp)
  · rw [hjoined] at hps
    obtain ⟨rfl, -⟩ := List.append_inj' hps rfl
    rw [walk_append, hstart] at hw
    split at hw
    · next next hnext => exact ⟨next, hnext⟩
    · exact absurd hw (by simp)

/-! ## What is found -/

theorem find_file_iff {q : Place} : d.find p = .ok (q, .file content) ↔
    ∃ dir file, d.locate p = .ok (.entry dir file false) ∧ file.utf8ByteSize ≤ greatestPiece ∧
      q = file :: dir ∧ d.node? q = some (.file content) := by
  constructor
  · intro h
    unfold find at h
    cases hl : d.locate p with
    | error e => simp [hl] at h
    | ok spot =>
      cases spot with
      | directory place => simp [hl] at h
      | entry dir file slash =>
        simp only [hl] at h
        cases hlook : d.lookUp dir file with
        | error e => simp [hlook] at h
        | ok x =>
          obtain ⟨hsize, hnode⟩ := lookUp_eq_ok_iff.mp hlook
          rcases x with _ | _ | old
          · simp [hlook] at h
          · simp [hlook] at h
          · cases slash with
            | true => simp [hlook] at h
            | false =>
              simp only [hlook, Bool.false_eq_true, if_false, Except.ok.injEq, Prod.mk.injEq,
                Node.file.injEq] at h
              obtain ⟨rfl, rfl⟩ := h
              exact ⟨dir, file, rfl, hsize, rfl, hnode⟩
  · rintro ⟨dir, file, hl, hsize, rfl, hnode⟩
    simp [find, hl, lookUp_eq_ok_iff.mpr ⟨hsize, hnode⟩]

/-- What is found stands where it is found. -/
theorem node?_of_find {q : Place} {x : Node} (h : d.find p = .ok (q, x)) :
    d.node? q = some x := by
  cases x with
  | directory => exact node?_directoryAt (directoryAt_of_find h)
  | file content =>
    obtain ⟨-, -, -, -, -, hnode⟩ := find_file_iff.mp h
    exact hnode

/-- What is found is found again as long as directories stay and it stays itself. -/
theorem find_keeps (h : d.Keeps d') {q : Place} {x : Node} (hfind : d.find p = .ok (q, x))
    (hnode : d'.node? q = some x) : d'.find p = .ok (q, x) := by
  cases x with
  | directory =>
    have hdir := directoryAt_of_find hfind
    cases hf : p.fault? with
    | none => exact find_of_directoryAt hf (directoryAt_keeps h hdir)
    | some e =>
      rw [find, locate_of_fault hf] at hfind
      exact absurd hfind (by simp)
  | file content =>
    obtain ⟨dir, file, hl, hsize, hq, -⟩ := find_file_iff.mp hfind
    exact find_file_iff.mpr ⟨dir, file, locate_keeps h hl, hsize, hq, hnode⟩

/-- A file that is taken away is not found any more. -/
theorem find_of_removed (h : d.Keeps d') {q : Place} (hfind : d.find p = .ok (q, .file content))
    (hnode : d'.node? q = none) : d'.find p = .error .notFound := by
  obtain ⟨dir, file, hl, hsize, rfl, -⟩ := find_file_iff.mp hfind
  rw [find, locate_keeps h hl]
  simp only [lookUp_eq_ok_iff.mpr ⟨hsize, hnode⟩]

/-! ## Reading, writing and removing -/

/-- To read a file is to find it. -/
theorem readFile_eq_ok_iff_find :
    d.readFile p = .ok content ↔ ∃ q, d.find p = .ok (q, .file content) := by
  unfold readFile
  cases d.find p with
  | error e => simp
  | ok found =>
    obtain ⟨q, x⟩ := found
    cases x <;> simp

theorem readFile_eq_ok_iff : d.readFile p = .ok content ↔
    ∃ dir file, d.locate p = .ok (.entry dir file false) ∧ file.utf8ByteSize ≤ greatestPiece ∧
      d.node? (file :: dir) = some (.file content) := by
  rw [readFile_eq_ok_iff_find]
  constructor
  · rintro ⟨q, hq⟩
    obtain ⟨dir, file, hl, hsize, rfl, hnode⟩ := find_file_iff.mp hq
    exact ⟨dir, file, hl, hsize, hnode⟩
  · rintro ⟨dir, file, hl, hsize, hnode⟩
    exact ⟨file :: dir, find_file_iff.mpr ⟨dir, file, hl, hsize, rfl, hnode⟩⟩

/-- To remove a file is to take away what is found, unless that is a directory. -/
theorem removeFile_eq_find (d : Disk) (p : Path) : d.removeFile p = match d.find p with
    | .error e => .error e
    | .ok (_, .directory) => .error .isADirectory
    | .ok (q, .file _) => .ok (d.eraseFile q) := by
  unfold removeFile find
  cases d.locate p with
  | error e => rfl
  | ok spot =>
    cases spot with
    | directory place => rfl
    | entry dir file slash =>
      cases hlook : d.lookUp dir file with
      | error e => simp only [hlook]
      | ok x =>
        rcases x with _ | _ | old
        · simp only [hlook]
        · simp only [hlook]
        · cases slash <;> simp [hlook]

theorem writeFile_eq_ok (h : d.writeFile p content = .ok d') :
    ∃ dir file, d.locate p = .ok (.entry dir file false) ∧ file.utf8ByteSize ≤ greatestPiece ∧
      d.Patched dir [(file, some content)] d' := by
  unfold writeFile at h
  cases hl : d.locate p with
  | error e => simp [hl] at h
  | ok spot =>
    cases spot with
    | directory place => simp [hl] at h
    | entry dir file slash =>
      cases slash with
      | true => simp [hl] at h
      | false =>
        simp only [hl, Bool.false_eq_true, if_false] at h
        cases hlook : d.lookUp dir file with
        | error e => simp [hlook] at h
        | ok x =>
          obtain ⟨hsize, hx⟩ := lookUp_eq_ok_iff.mp hlook
          have hnot : d.node? (file :: dir) ≠ some .directory := by
            intro hc
            rw [hlook, ← hx, hc] at h
            exact absurd h (by simp)
          have hput : d.put file dir (.file content) = d' := by
            rw [hlook] at h
            rcases x with _ | _ | old
            · exact Except.ok.inj h
            · exact absurd hx hnot
            · exact Except.ok.inj h
          refine ⟨dir, file, rfl, hsize, ?_⟩
          rw [← hput]
          exact patched_put (node?_of_locate hl) hnot content

theorem removeFile_eq_ok (h : d.removeFile p = .ok d') :
    ∃ dir file content, d.locate p = .ok (.entry dir file false) ∧
      d.node? (file :: dir) = some (.file content) ∧ d.Patched dir [(file, none)] d' := by
  rw [removeFile_eq_find] at h
  split at h
  · exact absurd h (by simp)
  · exact absurd h (by simp)
  · next q content hfind =>
    obtain ⟨dir, file, hl, -, rfl, hnode⟩ := find_file_iff.mp hfind
    refine ⟨dir, file, content, hl, hnode, ?_⟩
    rw [← Except.ok.inj h]
    exact patched_eraseFile (by rw [hnode]; simp)

/-- What was written is read. -/
theorem readFile_of_writeFile (h : d.writeFile p content = .ok d') :
    d'.readFile p = .ok content := by
  obtain ⟨dir, file, hl, hsize, hp⟩ := writeFile_eq_ok h
  exact readFile_eq_ok_iff.mpr
    ⟨dir, file, locate_keeps hp.keeps hl, hsize, hp.entry_of_written List.lookup_cons_self⟩

/-! ## What is spared -/

/-- From `d` to `d'` no directory was made or lost, and what stands at the place `q` is the same. -/
structure Spares (d : Disk) (q : Place) (d' : Disk) : Prop where
  keeps : d.Keeps d'
  kept : d'.Keeps d
  same : d'.node? q = d.node? q

namespace Spares

variable {q : Place}

theorem refl (d : Disk) (q : Place) : d.Spares q d := ⟨Keeps.refl d, Keeps.refl d, rfl⟩

theorem trans (h₁ : d.Spares q d') (h₂ : d'.Spares q d'') : d.Spares q d'' :=
  ⟨h₁.keeps.trans h₂.keeps, h₂.kept.trans h₁.kept, h₂.same.trans h₁.same⟩

/-- A path leads to the same spot as before. -/
theorem locate_iff (h : d.Spares q d') {spot : Spot} :
    d'.locate p = .ok spot ↔ d.locate p = .ok spot :=
  ⟨locate_keeps h.kept, locate_keeps h.keeps⟩

theorem of_patched {ps : Patches} (h : d.Patched dir ps d')
    (hq : ∀ f c, ps.lookup f = some c → q ≠ f :: dir) : d.Spares q d' where
  keeps := h.keeps
  kept := ⟨h.home.symm, fun p hp => (h.directory_iff p).mp hp⟩
  same := by
    rcases h.node?_eq_or q with heq | ⟨f, c, heq, hl⟩
    · exact heq
    · exact absurd heq (hq f c hl)

/-- A change of one entry spares every other. -/
theorem of_patch {c : Option ByteArray} (h : d.Patched dir [(file, c)] d') (hq : q ≠ file :: dir) :
    d.Spares q d' := by
  refine of_patched h fun f c' hl => ?_
  rwa [(eq_of_lookup_singleton hl).1]

/-- A place that was spared so far goes on so when a path that does not lead there is patched. -/
theorem patch {dir' : Place} {file' : String} {c : Option ByteArray} (h : d.Spares (file :: dir) d')
    (hl : d'.locate p = .ok (.entry dir' file' false))
    (hne : d.locate p ≠ .ok (.entry dir file false)) (hp : d'.Patched dir' [(file', c)] d'') :
    d.Spares (file :: dir) d'' := by
  refine h.trans (of_patch hp fun hq => hne ?_)
  obtain ⟨rfl, rfl⟩ := List.cons.inj hq
  exact h.locate_iff.mp hl

/-- A file that was spared is read as before. -/
theorem readFile (h : d.Spares (file :: dir) d') (hl : d.locate p = .ok (.entry dir file false)) :
    d'.readFile p = d.readFile p := by
  rw [Disk.readFile, Disk.readFile, find, find, locate_keeps h.keeps hl, hl]
  simp only [lookUp, h.same]

end Spares

end FractalShader.Disk
