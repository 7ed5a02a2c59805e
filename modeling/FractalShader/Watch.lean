import FractalShader.Store.Write

/-!
# Watching a store

A watcher regenerates a preset whenever its description document is created or
modified.  A preset that cannot be regenerated is reported and does not stop the
watcher.
-/

namespace FractalShader.Watch

open FractalShader.Action

/-- What happened to a file. -/
inductive ChangeKind where
  | any
  | access
  | create
  | modify
  | remove
  | other
  deriving DecidableEq

/-- One report of the file system. -/
structure Change where
  kind : ChangeKind
  paths : List Path

/-- The presets whose description documents a change touched, in the order of their code points
and each once. -/
def affected (s : Store) (c : Change) : List String :=
  if c.kind = .create ∨ c.kind = .modify then
    ((c.paths.filterMap s.nameForDocument).eraseDups).mergeSort fun a b => decide (a ≤ b)
  else []

/-- The absolute path of a place. -/
def placePath (p : Place) : Path := ⟨"/" ++ "/".intercalate p.reverse⟩

/-- Start watching: the directory of the store is made, and the store is taken by its absolute
path from then on. -/
def start (s : Store) : Action Store := do
  s.ensureRoot
  let (place, _) ← ask s.root (·.find s.root)
  let root := placePath place
  emit (.watching root.text)
  pure { s with root }

/-- Regenerate one preset; a failure is reported and goes no further. -/
def regenerate (s : Store) (strict : Bool) (name : String) : Action Unit := do
  match ← attempt (s.regenerate name strict) with
  | .ok published => emitAll (published.generated.warnings.map (.watchWarning name))
  | .error e => emit (.regenerationFailed name e)

/-- Regenerate presets in order. -/
def regenerateAll (s : Store) (strict : Bool) : List String → Action Unit
  | [] => pure ()
  | name :: names => do
    regenerate s strict name
    regenerateAll s strict names

/-- Answer one change. -/
def respond (s : Store) (strict : Bool) (c : Change) : Action Unit :=
  regenerateAll s strict (affected s c)

/-! ## Changes by others -/

/-- What somebody else does to the disk while a store is watched. -/
inductive Deed where
  /-- Write a file, after making the directories that lead to it. -/
  | write (path : Path) (content : ByteArray)
  /-- Make a directory and all that lead to it. -/
  | makeDirectory (path : Path)
  /-- Remove a file, or a directory with everything in it. -/
  | delete (path : Path)

/-- The change that is reported for what stands at `p`. -/
def changeAt (kind : ChangeKind) (d : Disk) (p : Path) : List Change :=
  match d.find p with
  | .ok (place, _) => [⟨kind, [placePath place]⟩]
  | .error _ => []

/-- What a deed leaves behind, and what is reported about it. -/
def Deed.apply (d : Disk) : Deed → Except OsError (Disk × List Change)
  | .write p content => (d.writeFileAndParents p content).map fun d => (d, changeAt .modify d p)
  | .makeDirectory p =>
    match d.makeDirectories p with
    | (made, .ok ()) => .ok (made, changeAt .create made p)
    | (_, .error e) => .error e
  | .delete p => (d.removeAll p).map fun erased => (erased, changeAt .remove d p)

/-- A deed, and the answers to what is reported about it. -/
def step (s : Store) (strict : Bool) (d : Disk) (deed : Deed) : Except OsError Disk :=
  (deed.apply d).map fun (d, changes) =>
    changes.foldl (fun d c => ((respond s strict c).run d).disk) d

/-- What a look at the disk tells about the time since the last one: the files that are new or
hold something else. -/
def changesBetween (before after : Disk) : List Change :=
  after.entries.filterMap fun (place, node) =>
    if node.isDirectory ∨ before.node? place = some node then none
    else some ⟨.modify, [placePath place]⟩

end FractalShader.Watch
