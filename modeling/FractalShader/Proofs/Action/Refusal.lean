import FractalShader.Proofs.Action.Steps

/-!
# Actions that refuse before they write

What an action does on the disk when it fails is put together from its steps.

* `Preserves` — an action that keeps a property of the disk, whatever its result;
* `ReadsOnly` — an action that leaves every disk as it is;
* `FailsOnDisk` — an action that nothing but the disk can stop;
* `RefusesFirst` — an action that leaves the disk as it is whenever something
  other than the disk stops it.  Reading before such an action
  (`ReadsOnly.bind_refusesFirst`), and going on after it with what only the disk
  can stop (`RefusesFirst.bind`), gives such an action again.
-/

namespace FractalShader

/-- Does an error come from a request that the disk refused? -/
def PresetError.IsIo : PresetError → Prop
  | .io _ _ => True
  | _ => False

namespace Action

variable {α β : Type}

/-- The action keeps the property `P` of the disk, whatever its result. -/
def Preserves (x : Action α) (P : Disk → Prop) : Prop := ∀ d, P d → P (x.run d).disk

/-- The action leaves every disk as it is. -/
def ReadsOnly (x : Action α) : Prop := ∀ d, (x.run d).disk = d

/-- The action fails only on requests that the disk refuses. -/
def FailsOnDisk (x : Action α) : Prop := ∀ d e d', x.Fails d e d' → e.IsIo

/-- The action leaves the disk as it is when it fails on anything else than the disk. -/
def RefusesFirst (x : Action α) : Prop := ∀ d e d', x.Fails d e d' → ¬ e.IsIo → d' = d

/-! ## Reading -/

theorem readsOnly_pure (a : α) : (pure a : Action α).ReadsOnly := fun _ => rfl

theorem readsOnly_emit (e : Event) : (emit e).ReadsOnly := fun _ => rfl

theorem readsOnly_emitAll (es : List Event) : (emitAll es).ReadsOnly := fun _ => rfl

theorem readsOnly_refuse (e : PresetError) : (refuse e : Action α).ReadsOnly := fun _ => rfl

theorem readsOnly_of (r : Except PresetError α) : (of r).ReadsOnly := fun _ => rfl

theorem readsOnly_look (f : Disk → α) : (look f).ReadsOnly := fun _ => rfl

theorem readsOnly_ask (p : Path) (f : Disk → Except OsError α) : (ask p f).ReadsOnly := fun _ => rfl

theorem ReadsOnly.attempt {x : Action α} (h : x.ReadsOnly) : x.attempt.ReadsOnly := h

theorem ReadsOnly.bind {x : Action α} {f : α → Action β} (hx : x.ReadsOnly)
    (hf : ∀ a, (f a).ReadsOnly) : (x >>= f).ReadsOnly := by
  intro d
  cases h : (x.run d).result with
  | ok a => rw [run_bind_ok h, hf a, hx d]
  | error e => rw [run_bind_error h, hx d]

/-- Two disks on which every step of a reader has the same result. -/
theorem ReadsOnly.result_bind_congr {x : Action α} {f : α → Action β} {d d' : Disk}
    (hx : x.ReadsOnly) (hr : (x.run d').result = (x.run d).result)
    (hf : ∀ a, x.Yields d a d → ((f a).run d').result = ((f a).run d).result) :
    ((x >>= f).run d').result = ((x >>= f).run d).result := by
  cases h : (x.run d).result with
  | ok a => rw [run_bind_ok h, run_bind_ok (hr.trans h), hx d, hx d', hf a ⟨h, hx d⟩]
  | error e => rw [run_bind_error h, run_bind_error (hr.trans h)]

theorem ReadsOnly.disk_eq {x : Action α} (h : x.ReadsOnly) {d d' : Disk} {a : α}
    (hy : x.Yields d a d') : d' = d :=
  hy.2.symm.trans (h d)

/-- What follows does not count for the disk where it only looks. -/
theorem disk_bind_of_readsOnly {x : Action α} {f : α → Action β} (hf : ∀ a, (f a).ReadsOnly)
    (d : Disk) : ((x >>= f).run d).disk = (x.run d).disk := by
  cases h : (x.run d).result with
  | ok a => rw [run_bind_ok h, hf a]
  | error e => rw [run_bind_error h]

/-! ## Keeping a property -/

section Preserves

variable {x : Action α} {f : α → Action β} {P : Disk → Prop}

theorem ReadsOnly.preserves (h : x.ReadsOnly) : x.Preserves P := by
  intro d hd
  rwa [h d]

theorem Preserves.bind (hx : x.Preserves P)
    (hf : ∀ d a d', x.Yields d a d' → (f a).Preserves P) : (x >>= f).Preserves P := by
  intro d hd
  rcases x.yields_or_fails d with ⟨a, hy⟩ | ⟨e, hfail⟩
  · rw [hy.disk_bind]
    exact hf d a _ hy _ (hx d hd)
  · rw [hfail.disk_bind]
    exact hx d hd

/-- To give back a value made of the result keeps what the action keeps. -/
theorem Preserves.map (hx : x.Preserves P) (f : α → β) :
    (x >>= fun a => pure (f a)).Preserves P :=
  hx.bind fun _ _ _ _ => (readsOnly_pure _).preserves

end Preserves

/-! ## Failing on the disk alone -/

theorem failsOnDisk_pure (a : α) : (pure a : Action α).FailsOnDisk :=
  fun _ _ _ h => absurd h fails_pure

theorem failsOnDisk_emit (ev : Event) : (emit ev).FailsOnDisk :=
  fun _ _ _ h => absurd h fails_emit

theorem failsOnDisk_request (p : Path) (f : Disk → Disk × Except OsError α) :
    (request p f).FailsOnDisk := by
  intro d e d' h
  obtain ⟨cause, -, rfl⟩ := fails_request.mp h
  trivial

theorem failsOnDisk_of_ok {r : Except PresetError α} {a : α} (h : r = .ok a) :
    (of r).FailsOnDisk := by
  intro d e d' hf
  rw [fails_of, h] at hf
  exact absurd hf.1 (by simp)

theorem FailsOnDisk.bind {x : Action α} {f : α → Action β} (hx : x.FailsOnDisk)
    (hf : ∀ a, (f a).FailsOnDisk) : (x >>= f).FailsOnDisk := by
  intro d e d' h
  rcases fails_bind.mp h with h | ⟨a, d₁, -, h⟩
  · exact hx d e d' h
  · exact hf a d₁ e d' h

/-! ## Refusing first -/

theorem ReadsOnly.refusesFirst {x : Action α} (h : x.ReadsOnly) : x.RefusesFirst :=
  fun d _ _ hf _ => hf.2.symm.trans (h d)

theorem FailsOnDisk.refusesFirst {x : Action α} (h : x.FailsOnDisk) : x.RefusesFirst :=
  fun d e d' hf hio => absurd (h d e d' hf) hio

/-- Checks may stand before an action that refuses first. -/
theorem ReadsOnly.bind_refusesFirst {x : Action α} {f : α → Action β} (hx : x.ReadsOnly)
    (hf : ∀ a, (f a).RefusesFirst) : (x >>= f).RefusesFirst := by
  intro d e d' h hio
  rcases fails_bind.mp h with h | ⟨a, d₁, hy, h⟩
  · exact hx.refusesFirst d e d' h hio
  · rw [hf a d₁ e d' h hio, hx.disk_eq hy]

/-- After an action that refuses first there is room only for what the disk alone can stop. -/
theorem RefusesFirst.bind {x : Action α} {f : α → Action β} (hx : x.RefusesFirst)
    (hf : ∀ d a d', x.Yields d a d' → (f a).FailsOnDisk) : (x >>= f).RefusesFirst := by
  intro d e d' h hio
  rcases fails_bind.mp h with h | ⟨a, d₁, hy, h⟩
  · exact hx d e d' h hio
  · exact absurd (hf d a d₁ hy d₁ e d' h) hio

end Action

end FractalShader
