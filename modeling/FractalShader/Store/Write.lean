import FractalShader.Store.Read

/-!
# Writing presets

To publish a preset is to write its two fragments and then its description
document.  A preset whose fragments would share a file with those of another
preset is refused before anything is written, and so is a configuration whose
unknown kinds a document could not keep.
-/

namespace FractalShader.Store

open FractalShader.Action

/-- A preset as it was written. -/
structure Published where
  paths : ArtifactPaths
  generated : Generated

/-- Make the directory of the store, where it is missing. -/
def ensureRoot (s : Store) : Action Unit := request s.root (·.makeDirectories s.root)

/-- Write a text file. -/
def writeText (p : Path) (text : String) : Action Unit :=
  request p (whole (·.writeFile p text.toUTF8))

/-- Remove a file.  That there is none is no error; the answer says whether there was one. -/
def removeIfPresent (p : Path) : Action Bool :=
  request p fun d =>
    match d.removeFile p with
    | .ok changed => (changed, .ok true)
    | .error .notFound => (d, .ok false)
    | .error e => (d, .error e)

/-- Does the preset `name` have a description document? -/
def hasDocument (s : Store) (name : String) : Action Bool := do
  let paths ← of (s.paths name)
  ask paths.document (·.exists? paths.document)

/-- Refuse a name whose fragments share a file with those of an existing preset: the driver of
`nSDF` is the distance fragment of `n`. -/
def checkCollision (s : Store) (name : String) : Action Unit := do
  match (dropSuffix? name "SDF").filter fun base => decide (PresetName.IsValid base) with
  | some base =>
    if ← s.hasDocument base then refuse (.invalidName name .takesFragment)
  | none => pure ()
  if ← s.hasDocument (Fragment.sdfStem name) then refuse (.invalidName name .takesDriver)

/-- Write the description document of a configuration. -/
def save (s : Store) (c : Config) : Action Path := do
  let paths ← of (s.paths c.name)
  if c.hasUnknown then refuse (.unrecognisedKinds c.name)
  s.ensureRoot
  writeText paths.document (Document.ofConfig c).encode
  emit (.savedDocument c.name paths.document.text)
  pure paths.document

/-- Replace both fragments of `name`. -/
def writeFragments (s : Store) (name driver sdf : String) : Action ArtifactPaths := do
  let paths ← of (s.paths name)
  s.checkCollision name
  s.ensureRoot
  let _ ← removeIfPresent paths.driver
  let _ ← removeIfPresent paths.sdf
  writeText paths.driver driver
  writeText paths.sdf sdf
  emit (.wroteFragments name paths.driver.text paths.sdf.text)
  pure paths

/-- Generate the fragments of a configuration, reporting what is done. -/
def generate (s : Store) (c : Config) (strict : Bool) : Action Generated := do
  emit (.generating c.name c.operations.length c.terminal)
  let generated ← of (Fragment.generate c s.settings strict)
  emitAll (generated.warnings.map .emittedSentinel)
  pure generated

/-- Generate a preset and write all its files. -/
def publish (s : Store) (c : Config) (strict : Bool) : Action Published := do
  if c.hasUnknown then refuse (.unrecognisedKinds c.name)
  let generated ← s.generate c strict
  let paths ← s.writeFragments c.name generated.driver generated.sdf
  let _ ← s.save c
  emit (.published c.name c.operations.length c.terminal generated.warnings.length)
  pure ⟨paths, generated⟩

/-- Write the fragments of `name` again from its description document, which stays as it is. -/
def regenerate (s : Store) (name : String) (strict : Bool) : Action Published := do
  let c ← s.readDocument name
  let generated ← s.generate c strict
  let paths ← s.writeFragments name generated.driver generated.sdf
  emit (.regenerated name generated.warnings.length)
  pure ⟨paths, generated⟩

/-- Remove the files of `name`, as far as they exist; the answer is how many did. -/
def remove (s : Store) (name : String) : Action Nat := do
  let paths ← of (s.paths name)
  let driver ← removeIfPresent paths.driver
  let sdf ← removeIfPresent paths.sdf
  let document ← removeIfPresent paths.document
  let files := driver.toNat + sdf.toNat + document.toNat
  emit (.removed name files)
  pure files

end FractalShader.Store
