import FractalShader.Proofs.Session.Turns

/-!
# Requests

Everything that can be asked of a store and of the session over it, as data, so
that statements can speak of any request and of any order of requests.

* `Store.answer` — the action of a request to the store;
* `Session.serve` — a request carried out on a disk, with the session that
  follows.
-/

namespace FractalShader

open FractalShader.Action

namespace Store

/-- What can be asked of a store. -/
inductive Request where
  | paths (name : String)
  | load (name : String)
  | tryLoad (name : String)
  | readDocument (name : String)
  | list
  | save (c : Config)
  | writeFragments (name driver sdf : String)
  | publish (c : Config) (strict : Bool)
  | regenerate (name : String) (strict : Bool)
  | remove (name : String)

/-- What a store answers. -/
inductive Answer where
  | paths (paths : ArtifactPaths)
  | loaded (c : Option Config)
  | config (c : Config)
  | names (names : List String)
  | document (p : Path)
  | published (p : Published)
  | removed (files : Nat)

/-- The action of a request. -/
def answer (s : Store) : Request → Action Answer
  | .paths name => do pure (.paths (← of (s.paths name)))
  | .load name => do pure (.loaded (← s.load name))
  | .tryLoad name => do pure (.config (← s.tryLoad name))
  | .readDocument name => do pure (.config (← s.readDocument name))
  | .list => do pure (.names (← s.list))
  | .save c => do pure (.document (← s.save c))
  | .writeFragments name driver sdf => do pure (.paths (← s.writeFragments name driver sdf))
  | .publish c strict => do pure (.published (← s.publish c strict))
  | .regenerate name strict => do pure (.published (← s.regenerate name strict))
  | .remove name => do pure (.removed (← s.remove name))

end Store

namespace Session

/-- What can be asked of a store with a session over it. -/
inductive Request where
  | store (r : Store.Request)
  | command (c : Command)
  /-- Open the session anew. -/
  | restart

/-- What comes back from a request that succeeded. -/
inductive Answer where
  | store (a : Store.Answer)
  | reply (r : Reply)
  | restarted

/-- Carry out a request on a disk. -/
def serve (s : Session) (d : Disk) : Request → Session × Outcome Answer
  | .store r =>
    let o := (s.store.answer r).run d
    (s, ⟨o.result.map .store, o.disk, o.events⟩)
  | .command c =>
    let (next, o) := s.step c d
    (next, ⟨o.result.map .reply, o.disk, o.events⟩)
  | .restart => (start s.store, ⟨.ok .restarted, d, []⟩)

/-! ## Commands -/

/-- A command that succeeds gives the session that its turn leaves. -/
theorem step_of_yields {s t : Session} {c : Command} {d d' : Disk} {r : Reply}
    (h : ((perform c).action s).Yields d (t, r) d') :
    (s.step c d).1 = t ∧ (s.step c d).2.result = .ok r ∧ (s.step c d).2.disk = d' :=
  Turn.action_yields_iff.mp h

/-- A command that fails gives the session it was asked of: what can stop it comes first. -/
theorem step_of_fails {s : Session} {c : Command} {d d' : Disk} {e : PresetError}
    (h : ((perform c).action s).Fails d e d') :
    (s.step c d).1 = s ∧ (s.step c d).2.result = .error e ∧ (s.step c d).2.disk = d' := by
  obtain ⟨hr, hd⟩ := Turn.action_fails_iff.mp h
  exact ⟨allOrNothing_perform c s d e hr, hr, hd⟩

/-- What a command does on the disk is what its turn does. -/
theorem disk_step (s : Session) (c : Command) (d : Disk) :
    (s.step c d).2.disk = (((perform c).action s).run d).disk := rfl

/-! ## Every request -/

/-- The store stays the same throughout. -/
theorem store_serve (s : Session) (d : Disk) (r : Request) : (s.serve d r).1.store = s.store := by
  cases r with
  | store r => rfl
  | restart => rfl
  | command c =>
    exact keepsStore_perform c s d

end Session

end FractalShader
