import FractalShader.Proofs.Disk.Reach
import FractalShader.Proofs.Store.Effects

/-!
# Operations, step by step

Whatever an operation does to the disk is done by steps of four kinds: the directory
of the store is made, a file is removed, a fragment is written, a document is
written.  What every step keeps, the operation keeps, whatever its result and
wherever it stops.

* `disk_removeIfPresent_cases`, `disk_writeText_cases` — a removal or a writing changes
  the one file to which its path leads, or nothing;
* `file_of_ensureRoot`, `file_of_removeIfPresent`, `file_of_writeText` — where a file
  that is there after such a step comes from;
* `ReplacementKeeps` — the steps by which the fragments of one name are replaced;
  `preserves_writeFragments` and `preserves_regenerate` put them together;
* `StepsKeep` — the steps of all operations; `StepsKeep.serve` says that then no
  request to the store or to a session over it can break the property.
-/

namespace FractalShader

open FractalShader.Action FractalShader.Disk

namespace Store

variable {s : Store} {P : Disk → Prop} {name driver sdf : String} {strict : Bool}

/-! ## Single files -/

/-- A removal takes away the file to which its path leads, or changes nothing. -/
theorem disk_removeIfPresent_cases (p : Path) (d : Disk) :
    ((removeIfPresent p).run d).disk = d ∨
      ∃ dir file, d.locate p = .ok (.entry dir file false) ∧
        d.Patched dir [(file, none)] ((removeIfPresent p).run d).disk := by
  rw [removeIfPresent, run_request]
  cases hremove : d.removeFile p with
  | error e => cases e <;> exact .inl rfl
  | ok changed =>
    obtain ⟨dir, file, -, hl, -, hp⟩ := removeFile_eq_ok hremove
    exact .inr ⟨dir, file, hl, hp⟩

/-- A text is written to the file to which its path leads, or nothing changes. -/
theorem disk_writeText_cases (p : Path) (text : String) (d : Disk) :
    ((writeText p text).run d).disk = d ∨
      ∃ dir file, d.locate p = .ok (.entry dir file false) ∧
        d.Patched dir [(file, some text.toUTF8)] ((writeText p text).run d).disk := by
  rw [writeText, run_request, whole]
  cases hwrite : d.writeFile p text.toUTF8 with
  | error e => exact .inl rfl
  | ok changed =>
    obtain ⟨dir, file, hl, -, hp⟩ := writeFile_eq_ok hwrite
    exact .inr ⟨dir, file, hl, hp⟩

/-- A text that is written is the file to which its path leads. -/
theorem writeText_yields_at {p : Path} {text : String} {d d' : Disk} {u : Unit}
    (h : (writeText p text).Yields d u d') :
    ∃ dir file, d.locate p = .ok (.entry dir file false) ∧
      d.Patched dir [(file, some text.toUTF8)] d' := by
  rw [writeText, yields_request, whole] at h
  split at h
  · next hwrite =>
    obtain rfl := (Prod.mk.inj h).1
    obtain ⟨dir, file, hl, -, hp⟩ := writeFile_eq_ok hwrite
    exact ⟨dir, file, hl, hp⟩
  · exact absurd h (by simp)

/-- To make the directory of the store is to make no file. -/
theorem file_of_ensureRoot {d : Disk} {q : Place} {content : ByteArray}
    (h : (s.ensureRoot.run d).disk.node? q = some (.file content)) :
    d.node? q = some (.file content) := by
  rw [disk_ensureRoot] at h
  rcases (s.made_rooted d).place q with heq | ⟨-, hdir, -⟩
  · rwa [heq] at h
  · rw [hdir] at h
    exact absurd h (by simp)

/-- A file that is there after a removal was there before. -/
theorem file_of_removeIfPresent {p : Path} {d : Disk} {q : Place} {content : ByteArray}
    (h : ((removeIfPresent p).run d).disk.node? q = some (.file content)) :
    d.node? q = some (.file content) := by
  rcases disk_removeIfPresent_cases p d with heq | ⟨dir, file, -, hp⟩
  · rwa [heq] at h
  · rcases hp.node?_eq_or q with heq | ⟨f, c, rfl, hl⟩
    · rwa [heq] at h
    · obtain ⟨-, rfl⟩ := eq_of_lookup_singleton hl
      rw [hp.entry_of_removed hl] at h
      exact absurd h (by simp)

/-- A file that is there after a text was written was there before, or it is the text, at the place
to which the path leads. -/
theorem file_of_writeText {p : Path} {text : String} {d : Disk} {q : Place} {content : ByteArray}
    (h : ((writeText p text).run d).disk.node? q = some (.file content)) :
    d.node? q = some (.file content) ∨ content = text.toUTF8 ∧
      ∃ dir file, q = file :: dir ∧ d.locate p = .ok (.entry dir file false) := by
  rcases disk_writeText_cases p text d with heq | ⟨dir, file, hlocate, hp⟩
  · rw [heq] at h
    exact .inl h
  · rcases hp.node?_eq_or q with heq | ⟨f, c, rfl, hl⟩
    · rw [heq] at h
      exact .inl h
    · obtain ⟨rfl, rfl⟩ := eq_of_lookup_singleton hl
      rw [hp.entry_of_written hl] at h
      cases h
      exact .inr ⟨rfl, dir, f, rfl, hlocate⟩

/-! ## Replacing the fragments of one name -/

/-- Every step by which the fragments of `name` are replaced keeps the property `P`. -/
structure ReplacementKeeps (s : Store) (P : Disk → Prop) (name driver sdf : String) : Prop where
  root : s.ensureRoot.Preserves P
  removeDriver : (removeIfPresent (s.artifacts name).driver).Preserves P
  removeSdf : (removeIfPresent (s.artifacts name).sdf).Preserves P
  writeDriver : (writeText (s.artifacts name).driver driver).Preserves P
  writeSdf : (writeText (s.artifacts name).sdf sdf).Preserves P

theorem preserves_writeFragments
    (h : PresetName.IsValid name → s.ReplacementKeeps P name driver sdf) :
    (s.writeFragments name driver sdf).Preserves P := by
  unfold writeFragments
  refine (readsOnly_of _).preserves.bind fun _ paths _ hpaths => ?_
  rw [yields_of, paths_eq_ok_iff] at hpaths
  obtain ⟨⟨hv, rfl⟩, -⟩ := hpaths
  have hsteps := h hv
  refine (s.readsOnly_checkCollision name).preserves.bind fun _ _ _ _ => ?_
  refine hsteps.root.bind fun _ _ _ _ => ?_
  refine hsteps.removeDriver.bind fun _ _ _ _ => ?_
  refine hsteps.removeSdf.bind fun _ _ _ _ => ?_
  refine hsteps.writeDriver.bind fun _ _ _ _ => ?_
  refine hsteps.writeSdf.bind fun _ _ _ _ => ?_
  exact ((readsOnly_emit _).bind fun _ => readsOnly_pure _).preserves

/-- A regeneration replaces the fragments by what is generated. -/
theorem preserves_regenerate
    (h : PresetName.IsValid name → ∀ c g, Fragment.generate c s.settings strict = .ok g →
      s.ReplacementKeeps P name g.driver g.sdf) :
    (s.regenerate name strict).Preserves P := by
  unfold regenerate
  refine (s.readsOnly_readDocument name).preserves.bind fun _ c _ _ => ?_
  refine (s.readsOnly_generate c strict).preserves.bind fun _ g _ hgenerate => ?_
  have hg := (generate_yields hgenerate).1
  refine (preserves_writeFragments fun hv => h hv c g hg).bind fun _ _ _ _ => ?_
  exact ((readsOnly_emit _).bind fun _ => readsOnly_pure _).preserves

/-! ## All operations -/

/-- Every step of every operation keeps the property `P`. -/
structure StepsKeep (s : Store) (P : Disk → Prop) : Prop where
  root : s.ensureRoot.Preserves P
  remove : ∀ p, (removeIfPresent p).Preserves P
  driver : ∀ name text, PresetName.IsValid name →
    (writeText (s.artifacts name).driver text).Preserves P
  sdf : ∀ name text, PresetName.IsValid name → (writeText (s.artifacts name).sdf text).Preserves P
  document : ∀ c : Config, PresetName.IsValid c.name → c.hasUnknown = false →
    (writeText (s.documentPath c.name) (Document.ofConfig c).encode).Preserves P

namespace StepsKeep

theorem writeFragments (h : s.StepsKeep P) (name driver sdf : String) :
    (s.writeFragments name driver sdf).Preserves P :=
  preserves_writeFragments fun hv =>
    ⟨h.root, h.remove _, h.remove _, h.driver name driver hv, h.sdf name sdf hv⟩

theorem regenerate (h : s.StepsKeep P) (name : String) (strict : Bool) :
    (s.regenerate name strict).Preserves P :=
  preserves_regenerate fun hv _ g _ =>
    ⟨h.root, h.remove _, h.remove _, h.driver name g.driver hv, h.sdf name g.sdf hv⟩

theorem save (h : s.StepsKeep P) (c : Config) : (s.save c).Preserves P := by
  unfold Store.save
  refine (readsOnly_of _).preserves.bind fun _ paths _ hpaths => ?_
  rw [yields_of, paths_eq_ok_iff] at hpaths
  obtain ⟨⟨hv, rfl⟩, -⟩ := hpaths
  cases hknown : c.hasUnknown with
  | true =>
    exact (readsOnly_refuse _).preserves.bind fun _ _ _ hr => absurd hr yields_refuse
  | false =>
    refine h.root.bind fun _ _ _ _ => ?_
    refine (h.document c hv hknown).bind fun _ _ _ _ => ?_
    exact ((readsOnly_emit _).bind fun _ => readsOnly_pure _).preserves

theorem publish (h : s.StepsKeep P) (c : Config) (strict : Bool) :
    (s.publish c strict).Preserves P := by
  unfold Store.publish
  cases hknown : c.hasUnknown with
  | true =>
    exact (readsOnly_refuse _).preserves.bind fun _ _ _ hr => absurd hr yields_refuse
  | false =>
    refine (s.readsOnly_generate c strict).preserves.bind fun _ g _ _ => ?_
    refine (h.writeFragments c.name g.driver g.sdf).bind fun _ _ _ _ => ?_
    refine (h.save c).bind fun _ _ _ _ => ?_
    exact ((readsOnly_emit _).bind fun _ => readsOnly_pure _).preserves

theorem removal (h : s.StepsKeep P) (name : String) : (s.remove name).Preserves P := by
  unfold Store.remove
  refine (readsOnly_of _).preserves.bind fun _ _ _ _ => ?_
  refine (h.remove _).bind fun _ _ _ _ => ?_
  refine (h.remove _).bind fun _ _ _ _ => ?_
  refine (h.remove _).bind fun _ _ _ _ => ?_
  exact ((readsOnly_emit _).bind fun _ => readsOnly_pure _).preserves

theorem answer (h : s.StepsKeep P) (r : Request) : (s.answer r).Preserves P := by
  cases r with
  | paths name => exact (readsOnly_of _).preserves.map _
  | load name => exact (s.readsOnly_load name).preserves.map _
  | tryLoad name => exact (s.readsOnly_tryLoad name).preserves.map _
  | readDocument name => exact (s.readsOnly_readDocument name).preserves.map _
  | list => exact s.readsOnly_list.preserves.map _
  | save c => exact (h.save c).map _
  | writeFragments name driver sdf => exact (h.writeFragments name driver sdf).map _
  | publish c strict => exact (h.publish c strict).map _
  | regenerate name strict => exact (h.regenerate name strict).map _
  | remove name => exact (h.removal name).map _

/-- No request to the store or to a session over it breaks what every step keeps. -/
theorem serve {t : Session} {d : Disk} (h : t.store.StepsKeep P) (hd : P d) (r : Session.Request) :
    P (t.serve d r).2.disk := by
  cases r with
  | store r => exact h.answer r d hd
  | restart => exact hd
  | command c =>
    show P (t.step c d).2.disk
    rw [t.disk_step c d]
    cases c with
    | rename name => exact (t.readsOnly_perform_rename name).preserves d hd
    | generate strict =>
      rw [Session.action_perform_generate]
      exact (h.publish t.config strict).map _ d hd
    | edit e => exact (t.readsOnly_perform_edit e).preserves d hd

end StepsKeep

end Store

end FractalShader
