import FractalShader.Store.Write

/-!
# Editing sessions

A session holds one working configuration over a store.  Giving it the name of
a stored preset loads that preset; any other name keeps the chain and the
distance function.

What a session does is a *turn*.  As an action leaves a disk behind, a turn
leaves a disk and the session behind, and what it did to either of them before
an error stays done.

* `Turn.run_bind_ok`, `Turn.run_bind_error` — turns one after another, up to the
  first error;
* `rename`, `edit` — the turns that put another configuration in the place of the
  working one;
* `step` — a command, with the session and the disk that it leaves.
-/

namespace FractalShader

/-- What a rename did to the working configuration. -/
inductive RenameOutcome where
  /-- A preset of that name replaced it. -/
  | loaded
  /-- Nothing usable has that name; only the name changed. -/
  | kept
  deriving DecidableEq

/-- A working configuration over a store. -/
structure Session where
  store : Store
  config : Config

namespace Session

open FractalShader.Action

/-- A session that has just been opened. -/
def start (store : Store) : Session := ⟨store, default⟩

/-- Write the files of the working configuration. -/
def generate (s : Session) (strict : Bool) : Action Store.Published :=
  s.store.publish s.config strict

/-! ## Turns -/

/-- Something that a session does, on a disk. -/
structure Turn (α : Type) where
  run : Session → Disk → Session × Outcome α

namespace Turn

variable {α β : Type}

/-- Do nothing. -/
protected def pure (a : α) : Turn α := ⟨fun s d => (s, ⟨.ok a, d, []⟩)⟩

/-- Go on with `f` when `x` succeeds, with the session and the disk that `x` leaves. -/
protected def bind (x : Turn α) (f : α → Turn β) : Turn β :=
  ⟨fun s d =>
    let (s, o) := x.run s d
    match o.result with
    | .error e => (s, ⟨.error e, o.disk, o.events⟩)
    | .ok a =>
      let (s, p) := (f a).run s o.disk
      (s, ⟨p.result, p.disk, o.events ++ p.events⟩)⟩

instance : Monad Turn where
  pure := Turn.pure
  bind := Turn.bind

/-- Do something to the disk. -/
def act (x : Action α) : Turn α := ⟨fun s d => (s, x.run d)⟩

/-- Look at the session. -/
def get : Turn Session := ⟨fun s d => (s, ⟨.ok s, d, []⟩)⟩

/-- Put `c` in the place of the working configuration. -/
def assign (c : Config) : Turn Unit := ⟨fun s d => ({ s with config := c }, ⟨.ok (), d, []⟩)⟩

/-- The turn of the session `s`, which nobody else holds, as an action: what the session becomes is
given back with the result, and is lost when the turn fails. -/
def action (x : Turn α) (s : Session) : Action (Session × α) :=
  ⟨fun d =>
    let (t, o) := x.run s d
    ⟨o.result.map fun a => (t, a), o.disk, o.events⟩⟩

theorem run_bind_ok {x : Turn α} {f : α → Turn β} {s : Session} {d : Disk} {a : α}
    (h : (x.run s d).2.result = .ok a) :
    (x >>= f).run s d =
      (((f a).run (x.run s d).1 (x.run s d).2.disk).1,
        ⟨((f a).run (x.run s d).1 (x.run s d).2.disk).2.result,
          ((f a).run (x.run s d).1 (x.run s d).2.disk).2.disk,
          (x.run s d).2.events ++ ((f a).run (x.run s d).1 (x.run s d).2.disk).2.events⟩) := by
  show (Turn.bind x f).run s d = _
  simp only [Turn.bind, h]

theorem run_bind_error {x : Turn α} {f : α → Turn β} {s : Session} {d : Disk} {e : PresetError}
    (h : (x.run s d).2.result = .error e) :
    (x >>= f).run s d =
      ((x.run s d).1, ⟨.error e, (x.run s d).2.disk, (x.run s d).2.events⟩) := by
  show (Turn.bind x f).run s d = _
  simp only [Turn.bind, h]

end Turn

/-- Give the working configuration a name, loading the preset of that name if there is one. -/
def rename (name : String) : Turn RenameOutcome := do
  Turn.act (of (PresetName.check name))
  let s ← Turn.get
  match ← Turn.act (s.store.load name) with
  | some c =>
    Turn.act (emit (.loadedOnRename name c.operations.length))
    Turn.assign c
    pure .loaded
  | none =>
    Turn.assign { s.config with name }
    pure .kept

/-- Edit the working configuration; what is given back is the fold that was removed, if one was. -/
def edit (e : Edit) : Turn (Option FoldKind) := do
  let s ← Turn.get
  let (c, removed) ← Turn.act (of (s.config.apply e))
  Turn.assign c
  pure removed

/-! ## Commands -/

/-- What a session can be told to do. -/
inductive Command where
  | rename (name : String)
  | generate (strict : Bool)
  | edit (e : Edit)

/-- What a command that succeeded gives. -/
inductive Reply where
  | renamed (outcome : RenameOutcome)
  | generated (published : Store.Published)
  /-- The fold that an edit removed, if it removed one. -/
  | edited (removed : Option FoldKind)

/-- The turn of a command. -/
def perform : Command → Turn Reply
  | .rename name => do
    let outcome ← rename name
    pure (.renamed outcome)
  | .generate strict => do
    let s ← Turn.get
    let published ← Turn.act (s.generate strict)
    pure (.generated published)
  | .edit e => do
    let removed ← edit e
    pure (.edited removed)

/-- Carry out a command on a disk. -/
def step (s : Session) (c : Command) (d : Disk) : Session × Outcome Reply := (perform c).run s d

end Session

end FractalShader
