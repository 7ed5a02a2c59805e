import FractalShader.Proofs.Action.Steps
import FractalShader.Session

/-!
# What turns leave of a session

A turn that fails may have changed the session before.  The commands do not: what
can stop them comes first, and the session is changed only after it.

* `Turn.Steady` — a turn that leaves every session as it is;
* `Turn.AllOrNothing` — a turn that leaves the session as it was whenever it fails;
  after steady turns comes such a turn (`Turn.Steady.bind_allOrNothing`), and after it
  only what cannot fail (`Turn.AllOrNothing.map`);
* `allOrNothing_perform` — so it is with every command;
* `Turn.KeepsStore`, `keepsStore_perform` — no command gives the session another store;
* `Turn.action_bind`, `action_rename`, `action_perform_rename`, `action_perform_generate`,
  `action_perform_edit` — the turns of a session that nobody else holds, as actions;
* `step_generate`, `step_edit` — what these commands leave of everything.
-/

namespace FractalShader.Session

open FractalShader.Action

namespace Turn

variable {α β : Type} {x : Turn α} {f : α → Turn β} {s t : Session} {d d' : Disk} {a : α}
  {e : PresetError}

/-! ## Single turns -/

theorem run_get_bind (f : Session → Turn α) (s : Session) (d : Disk) :
    (get >>= f).run s d = (f s).run s d := rfl

theorem run_act_map (y : Action α) (f : α → β) (s : Session) (d : Disk) :
    (act y >>= fun a => pure (f a)).run s d =
      (s, ⟨(y.run d).result.map f, (y.run d).disk, (y.run d).events⟩) := by
  have hact : (act y).run s d = (s, y.run d) := rfl
  cases h : (y.run d).result with
  | ok a =>
    have hok : ((act y).run s d).2.result = .ok a := h
    rw [run_bind_ok hok, hact]
    show (s, Outcome.mk _ _ (_ ++ [])) = _
    rw [List.append_nil]
    rfl
  | error e =>
    have herror : ((act y).run s d).2.result = .error e := h
    rw [run_bind_error herror, hact]
    rfl

/-! ## Leaving the session alone -/

/-- The turn leaves every session as it is. -/
def Steady (x : Turn α) : Prop := ∀ s d, (x.run s d).1 = s

/-- The turn leaves the session as it was when it fails. -/
def AllOrNothing (x : Turn α) : Prop :=
  ∀ s d e, (x.run s d).2.result = .error e → (x.run s d).1 = s

/-- The turn leaves the session over its store. -/
def KeepsStore (x : Turn α) : Prop := ∀ s d, (x.run s d).1.store = s.store

theorem steady_pure (a : α) : (pure a : Turn α).Steady := fun _ _ => rfl

theorem steady_act (x : Action α) : (act x).Steady := fun _ _ => rfl

theorem steady_get : get.Steady := fun _ _ => rfl

theorem Steady.bind (hx : x.Steady) (hf : ∀ a, (f a).Steady) : (x >>= f).Steady := by
  intro s d
  cases h : (x.run s d).2.result with
  | ok a => rw [run_bind_ok h, hf a, hx s d]
  | error e => rw [run_bind_error h, hx s d]

theorem Steady.allOrNothing (h : x.Steady) : x.AllOrNothing := fun s d _ _ => h s d

/-- To put another configuration in its place cannot fail. -/
theorem allOrNothing_assign (c : Config) : (assign c).AllOrNothing := fun _ _ _ h => nomatch h

/-- Before the session is changed anything may fail. -/
theorem Steady.bind_allOrNothing (hx : x.Steady) (hf : ∀ a, (f a).AllOrNothing) :
    (x >>= f).AllOrNothing := by
  intro s d e he
  cases h : (x.run s d).2.result with
  | ok a =>
    rw [run_bind_ok h] at he ⊢
    exact (hf a _ _ e he).trans (hx s d)
  | error e' => rw [run_bind_error h, hx s d]

/-- After the session was changed nothing may fail. -/
theorem AllOrNothing.map (hx : x.AllOrNothing) (f : α → β) :
    (x >>= fun a => pure (f a)).AllOrNothing := by
  intro s d e he
  cases h : (x.run s d).2.result with
  | ok a =>
    rw [run_bind_ok h] at he
    exact nomatch he
  | error e' =>
    rw [run_bind_error h]
    exact hx s d e' h

theorem Steady.keepsStore (h : x.Steady) : x.KeepsStore := fun s d => congrArg store (h s d)

theorem keepsStore_assign (c : Config) : (assign c).KeepsStore := fun _ _ => rfl

theorem KeepsStore.bind (hx : x.KeepsStore) (hf : ∀ a, (f a).KeepsStore) :
    (x >>= f).KeepsStore := by
  intro s d
  cases h : (x.run s d).2.result with
  | ok a => rw [run_bind_ok h, hf a, hx s d]
  | error e => rw [run_bind_error h, hx s d]

/-! ## Turns as actions -/

theorem run_action (x : Turn α) (s : Session) (d : Disk) : (x.action s).run d =
    ⟨(x.run s d).2.result.map fun a => ((x.run s d).1, a), (x.run s d).2.disk,
      (x.run s d).2.events⟩ := rfl

theorem action_yields_iff : (x.action s).Yields d (t, a) d' ↔
    (x.run s d).1 = t ∧ (x.run s d).2.result = .ok a ∧ (x.run s d).2.disk = d' := by
  rw [Yields, run_action]
  cases (x.run s d).2.result <;> simp [Except.map, and_assoc]

theorem action_fails_iff : (x.action s).Fails d e d' ↔
    (x.run s d).2.result = .error e ∧ (x.run s d).2.disk = d' := by
  rw [Fails, run_action]
  cases (x.run s d).2.result <;> simp [Except.map]

theorem action_pure (a : α) (s : Session) : (pure a : Turn α).action s = pure (s, a) := rfl

theorem action_act (x : Action α) (s : Session) :
    (act x).action s = x >>= fun a => pure (s, a) := by
  apply ext_run
  intro d
  have hrun : (act x).run s d = (s, x.run d) := rfl
  rw [run_action, hrun]
  cases h : (x.run d).result with
  | ok a => rw [Action.run_bind_ok h, run_pure, List.append_nil]; rfl
  | error e => rw [Action.run_bind_error h]; rfl

theorem action_get (s : Session) : get.action s = pure (s, s) := rfl

theorem action_assign (c : Config) (s : Session) :
    (assign c).action s = pure ({ s with config := c }, ()) := rfl

/-- The session is handed on from turn to turn. -/
theorem action_bind (x : Turn α) (f : α → Turn β) (s : Session) :
    (x >>= f).action s = x.action s >>= fun r => (f r.2).action r.1 := by
  apply ext_run
  intro d
  cases h : (x.run s d).2.result with
  | ok a =>
    have hx : ((x.action s).run d).result = .ok ((x.run s d).1, a) := by rw [run_action, h]; rfl
    rw [Action.run_bind_ok hx, run_action, run_bind_ok h, run_action, run_action]
  | error e =>
    have hx : ((x.action s).run d).result = .error e := by rw [run_action, h]; rfl
    rw [Action.run_bind_error hx, run_action, run_bind_error h, run_action]
    rfl

end Turn

/-! ## Giving a name -/

theorem allOrNothing_rename (name : String) : (rename name).AllOrNothing := by
  refine (Turn.steady_act _).bind_allOrNothing fun _ => ?_
  refine Turn.steady_get.bind_allOrNothing fun s => ?_
  refine (Turn.steady_act _).bind_allOrNothing fun found => ?_
  cases found with
  | some c =>
    exact (Turn.steady_act _).bind_allOrNothing fun _ => (Turn.allOrNothing_assign c).map _
  | none => exact (Turn.allOrNothing_assign _).map _

theorem keepsStore_rename (name : String) : (rename name).KeepsStore := by
  refine (Turn.steady_act _).keepsStore.bind fun _ => ?_
  refine Turn.steady_get.keepsStore.bind fun s => ?_
  refine (Turn.steady_act _).keepsStore.bind fun found => ?_
  have hend (c : Config) (outcome : RenameOutcome) :
      (Turn.assign c >>= fun _ => pure outcome).KeepsStore :=
    (Turn.keepsStore_assign c).bind fun _ => (Turn.steady_pure outcome).keepsStore
  cases found with
  | some c => exact (Turn.steady_act _).keepsStore.bind fun _ => hend c _
  | none => exact hend _ _

/-- To give a name is to load what has it. -/
theorem action_rename (name : String) (s : Session) : (rename name).action s = (do
    of (PresetName.check name)
    match ← s.store.load name with
    | some c =>
      emit (.loadedOnRename name c.operations.length)
      pure ({ s with config := c }, .loaded)
    | none => pure ({ s with config := { s.config with name } }, .kept)) := by
  rw [rename, Turn.action_bind, Turn.action_act, bind_assoc]
  refine congrArg _ (funext fun _ => ?_)
  rw [pure_bind, Turn.action_bind, Turn.action_get, pure_bind, Turn.action_bind, Turn.action_act,
    bind_assoc]
  refine congrArg _ (funext fun found => ?_)
  rw [pure_bind]
  cases found with
  | some c =>
    simp only [Turn.action_bind, Turn.action_act, Turn.action_assign, Turn.action_pure, bind_assoc,
      pure_bind]
  | none => simp only [Turn.action_bind, Turn.action_assign, Turn.action_pure, pure_bind]

/-! ## Editing -/

theorem allOrNothing_edit (e : Edit) : (edit e).AllOrNothing := by
  refine Turn.steady_get.bind_allOrNothing fun s => ?_
  exact (Turn.steady_act _).bind_allOrNothing fun r => (Turn.allOrNothing_assign r.1).map _

theorem keepsStore_edit (e : Edit) : (edit e).KeepsStore := by
  refine Turn.steady_get.keepsStore.bind fun s => ?_
  refine (Turn.steady_act _).keepsStore.bind fun r => ?_
  exact (Turn.keepsStore_assign r.1).bind fun _ => (Turn.steady_pure r.2).keepsStore

/-! ## Commands -/

/-- **A command that fails leaves the session as it was.** -/
theorem allOrNothing_perform (c : Command) : (perform c).AllOrNothing := by
  cases c with
  | rename name => exact (allOrNothing_rename name).map _
  | generate strict =>
    refine (Turn.steady_get.bind fun s => ?_).allOrNothing
    exact (Turn.steady_act _).bind fun _ => Turn.steady_pure _
  | edit e => exact (allOrNothing_edit e).map _

/-- No command gives the session another store. -/
theorem keepsStore_perform (c : Command) : (perform c).KeepsStore := by
  cases c with
  | rename name => exact (keepsStore_rename name).bind fun _ => (Turn.steady_pure _).keepsStore
  | generate strict =>
    refine (Turn.steady_get.bind fun s => ?_).keepsStore
    exact (Turn.steady_act _).bind fun _ => Turn.steady_pure _
  | edit e => exact (keepsStore_edit e).bind fun _ => (Turn.steady_pure _).keepsStore

theorem action_perform_rename (name : String) (s : Session) : (perform (.rename name)).action s =
    (rename name).action s >>= fun r => pure (r.1, .renamed r.2) := by
  rw [perform, Turn.action_bind]
  rfl

theorem action_perform_generate (strict : Bool) (s : Session) :
    (perform (.generate strict)).action s =
      s.generate strict >>= fun published => pure (s, .generated published) := by
  rw [perform, Turn.action_bind, Turn.action_get, pure_bind, Turn.action_bind, Turn.action_act,
    bind_assoc]
  rfl

theorem action_perform_edit (e : Edit) (s : Session) : (perform (.edit e)).action s =
    of (s.config.apply e) >>= fun r => pure ({ s with config := r.1 }, .edited r.2) := by
  rw [perform, edit, Turn.action_bind, Turn.action_bind, Turn.action_get, pure_bind,
    Turn.action_bind, Turn.action_act, bind_assoc, bind_assoc]
  rfl

/-! ## What commands do -/

/-- To generate is to publish the working configuration; the session stays as it is. -/
theorem step_generate (s : Session) (strict : Bool) (d : Disk) :
    s.step (.generate strict) d = (s, ⟨((s.generate strict).run d).result.map .generated,
      ((s.generate strict).run d).disk, ((s.generate strict).run d).events⟩) := by
  rw [step, perform, Turn.run_get_bind, Turn.run_act_map]

theorem run_edit (e : Edit) (s : Session) (d : Disk) :
    (edit e).run s d = match s.config.apply e with
      | .ok (c, removed) => (⟨s.store, c⟩, ⟨.ok removed, d, []⟩)
      | .error err => (s, ⟨.error err, d, []⟩) := by
  rw [edit, Turn.run_get_bind]
  cases s.config.apply e <;> rfl

/-- A session that is told to make an edit makes it or stays as it is, and leaves the disk alone. -/
theorem step_edit (s : Session) (e : Edit) (d : Disk) :
    s.step (.edit e) d = match s.config.apply e with
      | .ok (c, removed) => (⟨s.store, c⟩, ⟨.ok (.edited removed), d, []⟩)
      | .error err => (s, ⟨.error err, d, []⟩) := by
  have hrun := run_edit e s d
  cases h : s.config.apply e with
  | ok r =>
    rw [h] at hrun
    have hok : ((edit e).run s d).2.result = .ok r.2 := by rw [hrun]
    rw [step, perform, Turn.run_bind_ok hok, hrun]
    rfl
  | error err =>
    rw [h] at hrun
    have herror : ((edit e).run s d).2.result = .error err := by rw [hrun]
    rw [step, perform, Turn.run_bind_error herror, hrun]

end FractalShader.Session
