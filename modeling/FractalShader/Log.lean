import FractalShader.Event
import FractalShader.Text.Quoted

/-!
# Log lines

How events look in the log.  A line has a level, the part of the program that it
comes from, a message and fields; names and reasons that come from outside are
quoted where the reader could not tell their ends.
-/

namespace FractalShader.Log

/-- How important a line is. -/
inductive Level where
  | error
  | warn
  | info
  | debug
  | trace
  deriving DecidableEq

namespace Level

/-- The levels in order, the most important first. -/
def rank : Level → Nat
  | error => 1
  | warn => 2
  | info => 3
  | debug => 4
  | trace => 5

/-- The level as it starts a line, in a column of its own. -/
def label : Level → String
  | error => "ERROR"
  | warn => " WARN"
  | info => " INFO"
  | debug => "DEBUG"
  | trace => "TRACE"

end Level

/-- A line of the log. -/
structure Line where
  level : Level
  /-- The part of the program that it comes from. -/
  target : String
  message : String
  /-- Each field with its value as it is shown. -/
  fields : List (String × String)
  deriving DecidableEq

/-- The parts of the program, as they are named in the log. -/
def codegenTarget : String := "fractal_compiler::codegen"

def storeTarget : String := "fractal_compiler::store"

def sessionTarget : String := "fractal_compiler::session"

def watchTarget : String := "fractal_compiler::watch"

/-- The line of an event; a notice has none. -/
def line? : Event → Option Line
  | .generating name operations terminal =>
    some ⟨.debug, codegenTarget, "generating fractal shader",
      [("name", name), ("operations", Nat.repr operations), ("terminal", terminal.name)]⟩
  | .emittedSentinel warning => some ⟨.warn, codegenTarget, warning.message, []⟩
  | .noUsablePreset name reason =>
    some ⟨.debug, storeTarget, "no usable preset",
      [("name", quoted name), ("reason", reason.message)]⟩
  | .malformedDocument path reason =>
    some ⟨.warn, storeTarget, "malformed preset document",
      [("path", path), ("reason", quoted reason)]⟩
  | .loadedDocument name operations =>
    some ⟨.debug, storeTarget, "loaded preset document",
      [("name", quoted name), ("operations", Nat.repr operations)]⟩
  | .savedDocument name path =>
    some ⟨.info, storeTarget, "saved preset document", [("name", name), ("path", path)]⟩
  | .wroteFragments name driver sdf =>
    some ⟨.debug, storeTarget, "wrote fragments",
      [("name", quoted name), ("driver", driver), ("sdf", sdf)]⟩
  | .published name operations terminal warnings =>
    some ⟨.info, storeTarget, "published preset",
      [("name", name), ("operations", Nat.repr operations), ("terminal", terminal.name),
        ("warnings", Nat.repr warnings)]⟩
  | .regenerated name warnings =>
    some ⟨.info, storeTarget, "regenerated fragments",
      [("name", quoted name), ("warnings", Nat.repr warnings)]⟩
  | .removed name files =>
    some ⟨.info, storeTarget, "removed preset",
      [("name", quoted name), ("removed", Nat.repr files)]⟩
  | .loadedOnRename name operations =>
    some ⟨.info, sessionTarget, "loaded preset on rename",
      [("name", quoted name), ("operations", Nat.repr operations)]⟩
  | .watching root =>
    some ⟨.info, watchTarget, "watching for description document changes", [("root", root)]⟩
  | .watchWarning name warning =>
    some ⟨.warn, watchTarget, warning.message, [("name", name)]⟩
  | .regenerationFailed name error =>
    some ⟨.error, watchTarget, "regeneration failed",
      [("name", name), ("error", error.message)]⟩
  | .notice _ => none

/-- The text of a line, with or without its target. -/
def Line.text (l : Line) (showTarget : Bool) : String :=
  l.level.label ++ " " ++ (if showTarget then l.target ++ ": " else "") ++ l.message
    ++ String.join (l.fields.map fun (key, value) => " " ++ key ++ "=" ++ value)

end FractalShader.Log
