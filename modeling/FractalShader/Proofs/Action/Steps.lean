import FractalShader.Action

/-!
# What actions lead to

Two relations say all that later modules need of a run: an action *yields* a
value and a disk, or it *fails* with an error and a disk.  Each way of building
an action has its law for both.

* `yields_bind`, `fails_bind` — a sequence yields when both parts do, and fails
  when the first part fails or the second does on what the first leaves;
* `yields_or_fails`, `Yields.unique` — every run does one of the two, in one way;
* `bind_assoc`, `pure_bind` — a sequence can be cut anywhere.
-/

namespace FractalShader.Action

variable {α β γ : Type}

/-- On `d`, the action succeeds with `a` and leaves `d'`. -/
def Yields (x : Action α) (d : Disk) (a : α) (d' : Disk) : Prop :=
  (x.run d).result = .ok a ∧ (x.run d).disk = d'

/-- On `d`, the action ends with the error `e` and leaves `d'`. -/
def Fails (x : Action α) (d : Disk) (e : PresetError) (d' : Disk) : Prop :=
  (x.run d).result = .error e ∧ (x.run d).disk = d'

theorem yields_or_fails (x : Action α) (d : Disk) :
    (∃ a, x.Yields d a (x.run d).disk) ∨ ∃ e, x.Fails d e (x.run d).disk := by
  cases h : (x.run d).result with
  | ok a => exact .inl ⟨a, h, rfl⟩
  | error e => exact .inr ⟨e, h, rfl⟩

theorem Yields.unique {x : Action α} {d d₁ d₂ : Disk} {a b : α} (h₁ : x.Yields d a d₁)
    (h₂ : x.Yields d b d₂) : a = b ∧ d₁ = d₂ :=
  ⟨Except.ok.inj (h₁.1.symm.trans h₂.1), h₁.2.symm.trans h₂.2⟩

theorem Yields.not_fails {x : Action α} {d d₁ d₂ : Disk} {a : α} {e : PresetError}
    (h₁ : x.Yields d a d₁) (h₂ : x.Fails d e d₂) : False := by
  have := h₁.1.symm.trans h₂.1
  exact absurd this (by simp)

/-! ## Sequences -/

theorem yields_bind {x : Action α} {f : α → Action β} {d d'' : Disk} {b : β} :
    (x >>= f).Yields d b d'' ↔ ∃ a d', x.Yields d a d' ∧ (f a).Yields d' b d'' := by
  constructor
  · rintro ⟨hr, hd⟩
    obtain ⟨a, ha, hb⟩ := result_bind_eq_ok_iff.mp hr
    rw [run_bind_ok ha] at hd
    exact ⟨a, _, ⟨ha, rfl⟩, hb, hd⟩
  · rintro ⟨a, d', ⟨ha, rfl⟩, hb, hd⟩
    exact ⟨result_bind_eq_ok_iff.mpr ⟨a, ha, hb⟩, by rw [run_bind_ok ha]; exact hd⟩

theorem fails_bind {x : Action α} {f : α → Action β} {d d'' : Disk} {e : PresetError} :
    (x >>= f).Fails d e d'' ↔
      x.Fails d e d'' ∨ ∃ a d', x.Yields d a d' ∧ (f a).Fails d' e d'' := by
  cases h : (x.run d).result with
  | ok a =>
    rw [Fails, run_bind_ok h]
    constructor
    · rintro ⟨hr, hd⟩
      exact .inr ⟨a, _, ⟨h, rfl⟩, hr, hd⟩
    · rintro (hx | ⟨a', d', hx, hr⟩)
      · exact absurd (h.symm.trans hx.1) (by simp)
      · obtain ⟨rfl, rfl⟩ := Yields.unique ⟨h, rfl⟩ hx
        exact hr
  | error e' =>
    rw [Fails, run_bind_error h]
    constructor
    · rintro ⟨hr, hd⟩
      cases hr
      exact .inl ⟨h, hd⟩
    · rintro (hx | ⟨a', d', hx, -⟩)
      · cases h.symm.trans hx.1
        exact ⟨rfl, hx.2⟩
      · exact absurd (h.symm.trans hx.1) (by simp)

/-- What follows a success is all that counts for the disk. -/
theorem Yields.disk_bind {x : Action α} {f : α → Action β} {d d' : Disk} {a : α}
    (h : x.Yields d a d') : ((x >>= f).run d).disk = ((f a).run d').disk := by
  rw [run_bind_ok h.1, h.2]

/-- To give back a value made of the result is to do the same on the disk. -/
theorem disk_bind_pure (x : Action α) (f : α → β) (d : Disk) :
    ((x >>= fun a => pure (f a)).run d).disk = (x.run d).disk := by
  cases h : (x.run d).result with
  | ok a => rw [run_bind_ok h, run_pure]
  | error e => rw [run_bind_error h]

theorem result_bind_pure (x : Action α) (f : α → β) (d : Disk) :
    ((x >>= fun a => pure (f a)).run d).result = (x.run d).result.map f := by
  cases h : (x.run d).result with
  | ok a => rw [run_bind_ok h]; rfl
  | error e => rw [run_bind_error h]; rfl

/-- Two actions in a row leave a disk as it is where each of them does. -/
theorem disk_bind_eq {x : Action α} {f : α → Action β} {d : Disk} (hx : (x.run d).disk = d)
    (hf : ∀ a, ((f a).run d).disk = d) : ((x >>= f).run d).disk = d := by
  cases h : (x.run d).result with
  | ok a => rw [run_bind_ok h, hx, hf a]
  | error e => rw [run_bind_error h, hx]

/-- Nothing follows a failure. -/
theorem Fails.disk_bind {x : Action α} {f : α → Action β} {d d' : Disk} {e : PresetError}
    (h : x.Fails d e d') : ((x >>= f).run d).disk = d' := by
  rw [run_bind_error h.1, h.2]

/-! ## Sequences of sequences -/

/-- Two actions that do the same on every disk are one. -/
theorem ext_run {x y : Action α} (h : ∀ d, x.run d = y.run d) : x = y := by
  cases x
  cases y
  exact congrArg Action.mk (funext h)

/-- Sequences can be cut anywhere. -/
theorem bind_assoc (x : Action α) (f : α → Action β) (g : β → Action γ) :
    x >>= f >>= g = x >>= fun a => f a >>= g := by
  apply ext_run
  intro d
  cases hx : (x.run d).result with
  | error e =>
    have hxf : ((x >>= f).run d).result = .error e := by rw [run_bind_error hx]
    rw [run_bind_error hxf, run_bind_error hx, run_bind_error hx]
  | ok a =>
    cases hf : ((f a).run (x.run d).disk).result with
    | error e =>
      have hxf : ((x >>= f).run d).result = .error e := by rw [run_bind_ok hx, hf]
      rw [run_bind_error hxf, run_bind_ok hx, run_bind_ok hx, run_bind_error hf, hf]
    | ok b =>
      have hxf : ((x >>= f).run d).result = .ok b := by rw [run_bind_ok hx, hf]
      rw [run_bind_ok hxf, run_bind_ok hx, run_bind_ok hx, run_bind_ok hf, List.append_assoc]

/-- To give back a value first is to go on with it. -/
theorem pure_bind (a : α) (f : α → Action β) : (pure a >>= f : Action β) = f a := by
  apply ext_run
  intro d
  have ha : ((pure a : Action α).run d).result = .ok a := rfl
  rw [run_bind_ok ha, run_pure]
  rfl

/-! ## Single steps -/

@[simp] theorem yields_pure {a b : α} {d d' : Disk} :
    (pure a : Action α).Yields d b d' ↔ b = a ∧ d' = d := by
  simp only [Yields, run_pure, Except.ok.injEq]
  exact ⟨fun h => ⟨h.1.symm, h.2.symm⟩, fun h => ⟨h.1.symm, h.2.symm⟩⟩

@[simp] theorem fails_pure {a : α} {d d' : Disk} {e : PresetError} :
    ¬ (pure a : Action α).Fails d e d' := fun h => by simpa using h.1

@[simp] theorem yields_emit {ev : Event} {u : Unit} {d d' : Disk} :
    (emit ev).Yields d u d' ↔ d' = d :=
  ⟨fun h => h.2.symm, fun h => ⟨rfl, h.symm⟩⟩

@[simp] theorem fails_emit {ev : Event} {d d' : Disk} {e : PresetError} :
    ¬ (emit ev).Fails d e d' := fun h => nomatch h.1

@[simp] theorem yields_emitAll {evs : List Event} {u : Unit} {d d' : Disk} :
    (emitAll evs).Yields d u d' ↔ d' = d :=
  ⟨fun h => h.2.symm, fun h => ⟨rfl, h.symm⟩⟩

@[simp] theorem fails_emitAll {evs : List Event} {d d' : Disk} {e : PresetError} :
    ¬ (emitAll evs).Fails d e d' := fun h => nomatch h.1

@[simp] theorem yields_refuse {e : PresetError} {a : α} {d d' : Disk} :
    ¬ (refuse e : Action α).Yields d a d' := fun h => nomatch h.1

@[simp] theorem fails_refuse {e e' : PresetError} {d d' : Disk} :
    (refuse e : Action α).Fails d e' d' ↔ e' = e ∧ d' = d :=
  ⟨fun h => ⟨(Except.error.inj h.1).symm, h.2.symm⟩, fun h => ⟨by rw [h.1]; rfl, h.2.symm⟩⟩

@[simp] theorem yields_of {r : Except PresetError α} {a : α} {d d' : Disk} :
    (of r).Yields d a d' ↔ r = .ok a ∧ d' = d :=
  ⟨fun h => ⟨h.1, h.2.symm⟩, fun h => ⟨h.1, h.2.symm⟩⟩

@[simp] theorem fails_of {r : Except PresetError α} {e : PresetError} {d d' : Disk} :
    (of r).Fails d e d' ↔ r = .error e ∧ d' = d :=
  ⟨fun h => ⟨h.1, h.2.symm⟩, fun h => ⟨h.1, h.2.symm⟩⟩

@[simp] theorem yields_look {f : Disk → α} {a : α} {d d' : Disk} :
    (look f).Yields d a d' ↔ a = f d ∧ d' = d :=
  ⟨fun h => ⟨(Except.ok.inj h.1).symm, h.2.symm⟩, fun h => ⟨by rw [h.1]; rfl, h.2.symm⟩⟩

@[simp] theorem fails_look {f : Disk → α} {e : PresetError} {d d' : Disk} :
    ¬ (look f).Fails d e d' := fun h => nomatch h.1

@[simp] theorem yields_ask {p : Path} {f : Disk → Except OsError α} {a : α} {d d' : Disk} :
    (ask p f).Yields d a d' ↔ f d = .ok a ∧ d' = d := by
  simp only [Yields, run_ask, refused]
  cases f d with
  | ok b => simp [eq_comm]
  | error e => simp

@[simp] theorem fails_ask {p : Path} {f : Disk → Except OsError α} {e : PresetError}
    {d d' : Disk} :
    (ask p f).Fails d e d' ↔ (∃ cause, f d = .error cause ∧ e = .io p.text cause) ∧ d' = d := by
  simp only [Fails, run_ask, refused]
  cases f d with
  | ok b => simp
  | error cause => simp [eq_comm]

@[simp] theorem yields_request {p : Path} {f : Disk → Disk × Except OsError α} {a : α}
    {d d' : Disk} : (request p f).Yields d a d' ↔ f d = (d', .ok a) := by
  rw [Yields, run_request]
  rcases f d with ⟨d₁, _ | b⟩
  · simp [refused]
  · simp [refused, and_comm]

@[simp] theorem fails_request {p : Path} {f : Disk → Disk × Except OsError α} {e : PresetError}
    {d d' : Disk} :
    (request p f).Fails d e d' ↔ ∃ cause, f d = (d', .error cause) ∧ e = .io p.text cause := by
  rw [Fails, run_request]
  rcases f d with ⟨d₁, cause | b⟩
  · simp only [refused, Except.error.injEq, Prod.mk.injEq]
    constructor
    · rintro ⟨h, rfl⟩
      exact ⟨cause, ⟨rfl, rfl⟩, h.symm⟩
    · rintro ⟨c, ⟨rfl, rfl⟩, rfl⟩
      exact ⟨rfl, rfl⟩
  · simp [refused]

@[simp] theorem yields_attempt {x : Action α} {r : Except PresetError α} {d d' : Disk} :
    x.attempt.Yields d r d' ↔ (x.run d).result = r ∧ (x.run d).disk = d' :=
  ⟨fun h => ⟨Except.ok.inj h.1, h.2⟩, fun h => ⟨congrArg _ h.1, h.2⟩⟩

@[simp] theorem fails_attempt {x : Action α} {e : PresetError} {d d' : Disk} :
    ¬ x.attempt.Fails d e d' := fun h => nomatch h.1

end FractalShader.Action
