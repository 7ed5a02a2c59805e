import FractalShader.Fragment

/-!
# Events

What an operation reports while it runs.  Most events go to the log, which may
leave them out; a notice is meant for the person at the terminal and is always
shown.
-/

namespace FractalShader

/-- Something that happened.  Paths are held as they are displayed. -/
inductive Event where
  /-- Generation of a configuration begins. -/
  | generating (name : String) (operations : Nat) (terminal : SdfKind)
  /-- The sentinel was put in the place of an unknown kind. -/
  | emittedSentinel (warning : Warning)
  /-- Nothing usable is stored under a name. -/
  | noUsablePreset (name : String) (reason : PresetError)
  | malformedDocument (path reason : String)
  | loadedDocument (name : String) (operations : Nat)
  | savedDocument (name path : String)
  | wroteFragments (name driver sdf : String)
  | published (name : String) (operations : Nat) (terminal : SdfKind) (warnings : Nat)
  | regenerated (name : String) (warnings : Nat)
  /-- The files of a preset were removed, as many as there were. -/
  | removed (name : String) (files : Nat)
  /-- A preset replaced the working configuration when its name was given. -/
  | loadedOnRename (name : String) (operations : Nat)
  | watching (root : String)
  /-- A regeneration after a change put the sentinel somewhere. -/
  | watchWarning (name : String) (warning : Warning)
  | regenerationFailed (name : String) (error : PresetError)
  /-- A line for the person at the terminal. -/
  | notice (text : String)

end FractalShader
