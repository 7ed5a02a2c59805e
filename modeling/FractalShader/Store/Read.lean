import FractalShader.Action
import FractalShader.Document
import FractalShader.Store

/-!
# Reading presets

A preset exists when its driver does; what it consists of is read from its
description document.  A preset that does not exist and a document that cannot
be decoded both mean that nothing usable is stored, which `load` answers by
`none`; every other failure is passed on.
-/

namespace FractalShader.Store

open FractalShader.Action

/-- Report a description document that is missing or cannot be decoded. -/
def malformed {α : Type} (p : Path) (reason : String) : Action α := do
  emit (.malformedDocument p.text reason)
  refuse (.malformedDocument p.text reason)

/-- Read the description document of `name`, without looking for its fragments. -/
def readDocument (s : Store) (name : String) : Action Config := do
  let paths ← of (s.paths name)
  match ← look (·.readText paths.document) with
  | .error .notFound => malformed paths.document "document is missing"
  | .error cause => refuse (.io paths.document.text cause)
  | .ok text =>
    match Document.decode text with
    | .error fault => malformed paths.document (fault.message text.toList)
    | .ok document =>
      emit (.loadedDocument name document.operations.length)
      pure (document.toConfig name)

/-- Load the preset `name`, which must exist. -/
def tryLoad (s : Store) (name : String) : Action Config := do
  let paths ← of (s.paths name)
  if ← ask paths.driver (·.exists? paths.driver) then s.readDocument name
  else refuse (.notFound name)

/-- Load the preset `name`, or `none` when nothing usable is stored under that name. -/
def load (s : Store) (name : String) : Action (Option Config) := do
  match ← attempt (s.tryLoad name) with
  | .ok c => pure (some c)
  | .error e =>
    if e.isAbsent then
      emit (.noUsablePreset name e)
      pure none
    else refuse e

/-- The names of the presets that have a description document, in the order of their code
points.  A directory that does not exist holds none. -/
def list (s : Store) : Action (List String) := do
  match ← look (·.list s.root) with
  | .error .notFound => pure []
  | .error cause => refuse (.io s.root.text cause)
  | .ok files =>
    let names := files.filterMap fun file => s.nameForDocument (s.root.join file)
    pure (names.mergeSort fun a b => decide (a ≤ b))

end FractalShader.Store
