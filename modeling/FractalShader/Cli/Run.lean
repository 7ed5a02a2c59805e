import FractalShader.Cli.Arguments
import FractalShader.Log.Filter
import FractalShader.Session
import FractalShader.Settings.Load
import FractalShader.Watch

/-!
# Running a command line

A command line is answered by what is printed, by what is written at the
terminal, by an exit code and by the disk that it leaves.  A failure is shown as
a chain, from what was tried to what was in the way.
-/

namespace FractalShader.Cli

open FractalShader.Action

/-! ## Failures -/

/-- Why a command failed. -/
inductive Failure where
  /-- An operation failed; the context says what was tried, where that is not plain. -/
  | preset (context : Option String) (error : PresetError)
  /-- There was nothing to delete. -/
  | nothingRemoved (name : String)
  deriving DecidableEq

/-- The links of the chain that is shown for a failure. -/
def Failure.chain : Failure → List String
  | preset context error => context.toList ++ [error.message] ++ error.source?.toList
  | nothingRemoved name => ["no files found for preset '" ++ name ++ "'"]

def Failure.message (f : Failure) : String := "error: " ++ ": ".intercalate f.chain

/-- A part of a command. -/
abbrev Task := ExceptT Failure Action

/-- An action as a part of a command. -/
def doing {α : Type} (context : Option String) (x : Action α) : Task α :=
  ExceptT.mk do
    match ← attempt x with
    | .ok a => pure (.ok a)
    | .error e => pure (.error (.preset context e))

/-- Show a line at the terminal. -/
def notice (text : String) : Task Unit := ExceptT.lift (emit (.notice text))

/-- Show each warning at the terminal. -/
def noticeWarnings (warnings : List Warning) : Task Unit :=
  ExceptT.lift (emitAll (warnings.map fun w => .notice ("warning: " ++ w.message)))

/-! ## What commands print -/

/-- `s` with blanks after it up to a width. -/
def padded (width : Nat) (s : String) : String :=
  s ++ String.ofList (List.replicate (width - s.length) ' ')

/-- The width of the column of names in the vocabulary. -/
def nameWidth : Nat := 20

/-- A line of the vocabulary. -/
def vocabularyLine (name code : String) : String := "  " ++ padded nameWidth name ++ " " ++ code

/-- The code that a fold emits, as it is listed. -/
def foldCode (k : FoldKind) : String :=
  match k.emission? with
  | some .orbit => orbitStatement
  | some (.transform call) => "new_p = " ++ call.expr ++ ";"
  | none => "(" ++ (PresetError.unknownKind k.name).message ++ ")"

/-- The code that a distance function emits, as it is listed. -/
def sdfCode (k : SdfKind) : String :=
  match k.returned? with
  | some expr => "return " ++ expr ++ ";"
  | none => "(" ++ (PresetError.unknownKind k.name).message ++ ")"

/-- Lines as text. -/
def lines (ls : List String) : String := String.join (ls.map (· ++ "\n"))

/-- Both vocabularies with the code that each kind emits. -/
def vocabulary : String :=
  lines (["folds:"] ++ FoldKind.all.map (fun k => vocabularyLine k.name (foldCode k))
    ++ ["", "sdfs:"] ++ SdfKind.all.map fun k => vocabularyLine k.name (sdfCode k))

/-- The answer to a request for the version. -/
def versionText : String := "fractal 0.1.0\n"

/-- The answer to a request for help. -/
def helpText : String :=
  lines ["Fractal shader generator: fold chains to ray-marchable SDF fragments",
    "",
    "Usage: fractal [OPTIONS] <COMMAND>",
    "",
    "Commands:",
    "  generate  Generate a preset's fragments and description document",
    "  show      Print a preset's generated code without writing anything",
    "  regen     Rebuild a preset's fragments from its description document",
    "  list      List saved presets",
    "  delete    Delete a preset's fragments and description document",
    "  kinds     Print the fold and SDF vocabulary with the code each emits",
    "  watch     Regenerate presets whenever their description documents change",
    "  help      Print this message"]

/-! ## Commands -/

/-- What a command ends with. -/
inductive Ending where
  /-- All that is to be printed. -/
  | printed (text : String)
  /-- The store is to be watched from now on. -/
  | watching (store : Store) (strict : Bool)

/-- The configuration to generate: the one of the session with the chain or the distance function
replaced where the command says so. -/
def adjusted (c : Config) (ops : List FoldKind) (clear : Bool) (sdf : Option SdfKind) : Config :=
  let c := if clear then c.clear else if ops = [] then c else { c with operations := ops }
  match sdf with
  | some terminal => { c with terminal }
  | none => c

/-- Carry out a command over a store. -/
def Command.task (store : Store) : Command → Task Ending
  | .generate name ops clear sdf strict => do
    let (session, outcome) ← doing none ((Session.rename name).action (.start store))
    if outcome = .loaded then notice ("loaded existing preset '" ++ name ++ "'")
    let session := { session with config := adjusted session.config ops clear sdf }
    let published ← doing (some ("cannot generate '" ++ name ++ "'")) (session.generate strict)
    noticeWarnings published.generated.warnings
    notice ("wrote " ++ published.paths.driver.text)
    notice ("wrote " ++ published.paths.sdf.text)
    notice ("wrote " ++ published.paths.document.text)
    pure (.printed "")
  | .print name sdfOnly driverOnly => do
    let c ← doing none (store.readDocument name)
    let generated ← doing none (store.generate c false)
    noticeWarnings generated.warnings
    pure (.printed
      ((if sdfOnly then "" else generated.driver)
        ++ (if sdfOnly || driverOnly then "" else "\n")
        ++ (if driverOnly then "" else generated.sdf)))
  | .regenerate name strict => do
    let published ← doing none (store.regenerate name strict)
    noticeWarnings published.generated.warnings
    notice ("regenerated " ++ published.paths.driver.text ++ " and " ++ published.paths.sdf.text)
    pure (.printed "")
  | .list => do
    let names ← doing none store.list
    pure (.printed (lines names))
  | .delete name => do
    let files ← doing none (store.remove name)
    if files = 0 then throw (.nothingRemoved name)
    notice ("removed " ++ Nat.repr files ++ " file(s) for '" ++ name ++ "'")
    pure (.printed "")
  | .kinds => pure (.printed vocabulary)
  | .watch strict => do
    let watched ← doing none (Watch.start store)
    pure (.watching watched strict)

/-- Carry out an invocation: read the settings, then do what the command says. -/
def Invocation.task (i : Invocation) : Task Ending := do
  let settings ← match i.settings with
    | none => pure default
    | some file =>
      doing (some ("cannot load settings '" ++ file ++ "'")) (Settings.load ⟨file⟩)
  i.command.task ⟨⟨i.dir⟩, settings⟩

/-! ## Answers -/

/-- What a command line leads to. -/
structure Answer where
  exit : Nat
  stdout : String
  stderr : String
  disk : Disk
  /-- The store that is to be watched from now on, if one is. -/
  watching : Option (Store × Bool)

/-- The exit code of a command that failed. -/
def failed : Nat := 1

/-- The exit code for a command line that is not well formed. -/
def misused : Nat := 2

/-- Carry out an invocation on a disk; `filter` is the log filter given from outside. -/
def Invocation.answer (i : Invocation) (filter : Option String) (d : Disk) : Answer :=
  let o := i.task.run.run d
  let f := Log.Filter.choose filter i.verbose
  let shown := String.join (o.events.map (Log.shown f i.verbose))
  match o.result with
  | .ok (.ok (.printed text)) => ⟨0, text, shown, o.disk, none⟩
  | .ok (.ok (.watching store strict)) => ⟨0, "", shown, o.disk, some (store, strict)⟩
  | .ok (.error failure) => ⟨failed, "", shown ++ failure.message ++ "\n", o.disk, none⟩
  | .error e =>
    ⟨failed, "", shown ++ (Failure.preset none e).message ++ "\n", o.disk, none⟩

/-- Answer a command line. -/
def answer (args : List String) (filter : Option String) (d : Disk) : Answer :=
  match Request.parse args with
  | .help => ⟨0, helpText, "", d, none⟩
  | .version => ⟨0, versionText, "", d, none⟩
  | .usage => ⟨misused, "", "error: bad arguments; try 'fractal help'\n", d, none⟩
  | .run i => i.answer filter d

end FractalShader.Cli
