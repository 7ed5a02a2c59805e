import FractalShader.Kind
import FractalShader.Name

/-!
# Preset configurations

A configuration is what a preset is made of: its name, its fold chain in the
order in which the folds are applied, and its distance function.  An edit of the
chain either succeeds or reports the first index that is out of range and
changes nothing.
-/

namespace FractalShader

/-- The name, the fold chain and the distance function of a preset. -/
structure Config where
  name : String
  operations : List FoldKind
  terminal : SdfKind
  deriving DecidableEq

/-- The name of a preset that nobody has named yet. -/
def defaultName : String := "Default"

instance : Inhabited Config := ⟨⟨defaultName, [], default⟩⟩

/-- A single edit of a configuration. -/
inductive Edit where
  | push (kind : FoldKind)
  /-- Insert before the entry at `index`; the length of the chain appends. -/
  | insert (index : Nat) (kind : FoldKind)
  | removeAt (index : Nat)
  /-- Move the entry at `source` so that it ends up at `target`. -/
  | move (source target : Nat)
  | clear
  | setTerminal (kind : SdfKind)
  | setOperations (kinds : List FoldKind)
  /-- Give another name, which is not checked. -/
  | setName (name : String)
  deriving DecidableEq

namespace Config

/-- A configuration under a name that can be used. -/
def create (name : String) (operations : List FoldKind) (terminal : SdfKind) :
    Except PresetError Config :=
  match PresetName.check name with
  | .ok () => .ok ⟨name, operations, terminal⟩
  | .error e => .error e

/-- Does the chain or the terminal hold a tag that the catalog does not know? -/
def hasUnknown (c : Config) : Bool :=
  decide (c.terminal = .unknown ∨ .unknown ∈ c.operations)

/-! ## Edits of the chain -/

def outOfRange (c : Config) (index : Nat) : PresetError :=
  .indexOutOfRange index c.operations.length

def push (c : Config) (kind : FoldKind) : Config :=
  { c with operations := c.operations ++ [kind] }

/-- Insert before the entry at `index`; the length of the chain appends. -/
def insert (c : Config) (index : Nat) (kind : FoldKind) : Except PresetError Config :=
  if index ≤ c.operations.length then
    .ok { c with operations := c.operations.insertIdx index kind }
  else .error (c.outOfRange index)

/-- Remove the entry at `index`, which is returned with what is left. -/
def removeAt (c : Config) (index : Nat) : Except PresetError (FoldKind × Config) :=
  match c.operations[index]? with
  | some kind => .ok (kind, { c with operations := c.operations.eraseIdx index })
  | none => .error (c.outOfRange index)

/-- Move the entry at `source` so that it ends up at `target`. -/
def move (c : Config) (source target : Nat) : Except PresetError Config :=
  match c.operations[source]? with
  | none => .error (c.outOfRange source)
  | some kind =>
    if target < c.operations.length then
      .ok { c with operations := (c.operations.eraseIdx source).insertIdx target kind }
    else .error (c.outOfRange target)

def clear (c : Config) : Config := { c with operations := [] }

/-- What an edit leads to, with the fold that it removed, if it removed one. -/
def apply (c : Config) : Edit → Except PresetError (Config × Option FoldKind)
  | .push kind => .ok (c.push kind, none)
  | .insert index kind => (c.insert index kind).map fun c => (c, none)
  | .removeAt index => (c.removeAt index).map fun (kind, c) => (c, some kind)
  | .move source target => (c.move source target).map fun c => (c, none)
  | .clear => .ok (c.clear, none)
  | .setTerminal kind => .ok ({ c with terminal := kind }, none)
  | .setOperations kinds => .ok ({ c with operations := kinds }, none)
  | .setName name => .ok ({ c with name }, none)

end Config

end FractalShader
