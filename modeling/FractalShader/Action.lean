import FractalShader.Disk.Access
import FractalShader.Event

/-!
# Actions

An action runs on a disk: it leaves a disk behind, reports events, and ends in a
value or in an error.  What it did before an error stays done; nothing is taken
back.

* `run_bind_ok`, `run_bind_error` — actions run one after another, up to the first
  error;
* `result_bind_eq_ok_iff` — when two actions in a row succeed;
* `run_ask`, `run_request` — a request that the disk refuses is an error that
  names the path.
-/

namespace FractalShader

/-- What an action led to. -/
structure Outcome (α : Type) where
  result : Except PresetError α
  disk : Disk
  events : List Event

/-- Something done to a disk. -/
structure Action (α : Type) where
  run : Disk → Outcome α

namespace Action

variable {α β : Type}

/-- Do nothing. -/
protected def pure (a : α) : Action α := ⟨fun d => ⟨.ok a, d, []⟩⟩

/-- Go on with `f` when `x` succeeds. -/
protected def bind (x : Action α) (f : α → Action β) : Action β :=
  ⟨fun d =>
    let o := x.run d
    match o.result with
    | .error e => ⟨.error e, o.disk, o.events⟩
    | .ok a =>
      let p := (f a).run o.disk
      ⟨p.result, p.disk, o.events ++ p.events⟩⟩

instance : Monad Action where
  pure := Action.pure
  bind := Action.bind

@[simp] theorem run_pure (a : α) (d : Disk) : (pure a : Action α).run d = ⟨.ok a, d, []⟩ := rfl

theorem run_bind_ok {x : Action α} {f : α → Action β} {d : Disk} {a : α}
    (h : (x.run d).result = .ok a) :
    (x >>= f).run d =
      ⟨((f a).run (x.run d).disk).result, ((f a).run (x.run d).disk).disk,
        (x.run d).events ++ ((f a).run (x.run d).disk).events⟩ := by
  show (Action.bind x f).run d = _
  simp only [Action.bind, h]

theorem run_bind_error {x : Action α} {f : α → Action β} {d : Disk} {e : PresetError}
    (h : (x.run d).result = .error e) :
    (x >>= f).run d = ⟨.error e, (x.run d).disk, (x.run d).events⟩ := by
  show (Action.bind x f).run d = _
  simp only [Action.bind, h]

/-- Two actions in a row succeed exactly when the first does and the second does on what the
first leaves behind. -/
theorem result_bind_eq_ok_iff {x : Action α} {f : α → Action β} {d : Disk} {b : β} :
    ((x >>= f).run d).result = .ok b ↔
      ∃ a, (x.run d).result = .ok a ∧ ((f a).run (x.run d).disk).result = .ok b := by
  cases h : (x.run d).result with
  | ok a => simp [run_bind_ok h]
  | error e => simp [run_bind_error h]

/-! ## Single steps -/

/-- Report an event. -/
def emit (e : Event) : Action Unit := ⟨fun d => ⟨.ok (), d, [e]⟩⟩

/-- Report several events. -/
def emitAll (es : List Event) : Action Unit := ⟨fun d => ⟨.ok (), d, es⟩⟩

/-- End with an error. -/
def refuse (e : PresetError) : Action α := ⟨fun d => ⟨.error e, d, []⟩⟩

/-- End with an error where `r` is one. -/
def of (r : Except PresetError α) : Action α := ⟨fun d => ⟨r, d, []⟩⟩

/-- Look at the disk. -/
def look (f : Disk → α) : Action α := ⟨fun d => ⟨.ok (f d), d, []⟩⟩

/-- Run `x` and go on, whether it succeeds or not. -/
def attempt (x : Action α) : Action (Except PresetError α) :=
  ⟨fun d =>
    let o := x.run d
    ⟨.ok o.result, o.disk, o.events⟩⟩

/-- The error of a request about `p` that the disk refused. -/
def refused (p : Path) (r : Except OsError α) : Except PresetError α :=
  match r with
  | .ok a => .ok a
  | .error cause => .error (.io p.text cause)

/-- Ask the disk about `p`. -/
def ask (p : Path) (f : Disk → Except OsError α) : Action α :=
  ⟨fun d => ⟨refused p (f d), d, []⟩⟩

/-- Have the disk changed at `p`, as far as that is possible. -/
def request (p : Path) (f : Disk → Disk × Except OsError α) : Action α :=
  ⟨fun d =>
    let (changed, r) := f d
    ⟨refused p r, changed, []⟩⟩

/-- A change that is done wholly or not at all. -/
def whole (f : Disk → Except OsError Disk) : Disk → Disk × Except OsError Unit := fun d =>
  match f d with
  | .ok changed => (changed, .ok ())
  | .error e => (d, .error e)

theorem run_ask (p : Path) (f : Disk → Except OsError α) (d : Disk) :
    (ask p f).run d = ⟨refused p (f d), d, []⟩ := rfl

theorem run_request (p : Path) (f : Disk → Disk × Except OsError α) (d : Disk) :
    (request p f).run d = ⟨refused p (f d).2, (f d).1, []⟩ := rfl

end Action

end FractalShader
