import FractalShader.Kind.Spelling

/-!
# Command lines

A command line names a subcommand and its options.  Options that concern every
subcommand may stand before or after its name.  An option's value is the next
argument or follows an equals sign; after `--` nothing is an option.

Arguments are taken one by one, so that a request for help counts only if
nothing before it was wrong.

* `scan_ended_positionals` — no more positional arguments are taken than there may be.
-/

namespace FractalShader.Cli

/-! ## Options -/

/-- An option that may be given. -/
structure OptionSpec where
  /-- Its name after two hyphens. -/
  long : String
  /-- Its letter after one hyphen. -/
  short : Option Char
  /-- Does it take a value?  Then these are the values it takes. -/
  values : Option (String → Bool)
  /-- May it be given more than once? -/
  repeatable : Bool

/-- An option without a value. -/
def OptionSpec.flag (long : String) (short : Option Char) : OptionSpec :=
  ⟨long, short, none, false⟩

/-- An option with one of these values. -/
def OptionSpec.valued (long : String) (values : String → Bool) (repeatable : Bool) : OptionSpec :=
  ⟨long, none, some values, repeatable⟩

/-- What may be given at one point of a command line. -/
structure Grammar where
  options : List OptionSpec
  /-- How many arguments that are no options there may be. -/
  positionals : Nat
  subcommands : List String
  /-- May the version be asked for? -/
  version : Bool

/-- The options that were given, each with its value, in order. -/
abbrev Given := List (String × String)

/-- How far a command line could be taken. -/
inductive Scanned where
  | help
  | version
  | refused
  /-- All of it; no subcommand was named. -/
  | ended (given : Given) (positionals : List String)
  /-- Up to the name of a subcommand. -/
  | entered (given : Given) (subcommand : String) (rest : List String)
  deriving DecidableEq

/-- Add an option, unless it is there already and must not be repeated, or does not take the
value. -/
def Given.add (given : Given) (spec : OptionSpec) (value : String) : Option Given :=
  if !spec.repeatable ∧ given.any (fun g => g.1 = spec.long) then none
  else match spec.values with
    | none => some (given ++ [(spec.long, "")])
    | some accepts => if accepts value then some (given ++ [(spec.long, value)]) else none

/-- The value of an option that is given once at most. -/
def Given.value? (given : Given) (long : String) : Option String := given.lookup long

/-- The values of an option, in order. -/
def Given.valuesOf (given : Given) (long : String) : List String :=
  (given.filter fun g => g.1 = long).map Prod.snd

def Given.has (given : Given) (long : String) : Bool := given.any fun g => g.1 = long

/-- A letter cluster such as `-vh`. -/
inductive Letters where
  | help
  | version
  | refused
  | given (g : Given)

/-- Take the letters of a cluster one by one. -/
def scanLetters (grammar : Grammar) (given : Given) : List Char → Letters
  | [] => .given given
  | c :: cs =>
    if c = 'h' then .help
    else if c = 'V' ∧ grammar.version then .version
    else match grammar.options.find? fun o => o.short = some c with
      | none => .refused
      | some spec =>
        match given.add spec "" with
        | none => .refused
        | some given => scanLetters grammar given cs

/-- Does an argument look like an option, so that it is no value of the option before it? -/
def looksLikeOption (s : String) : Bool :=
  match s.toList with
  | '-' :: _ :: _ => true
  | _ => false

/-- Take the arguments of a command line one by one. -/
def scan (grammar : Grammar) (given : Given) (positionals : List String) : List String → Scanned
  | [] => .ended given positionals
  | arg :: rest =>
    if arg = "--" then
      if positionals.length + rest.length ≤ grammar.positionals then
        .ended given (positionals ++ rest)
      else .refused
    else match arg.toList with
      | '-' :: '-' :: body =>
        let name := String.ofList (body.takeWhile (· ≠ '='))
        match body.dropWhile (· ≠ '=') with
        | _ :: value =>
          match grammar.options.find? fun o => o.long = name ∧ o.values.isSome with
          | none => .refused
          | some spec =>
            match given.add spec (String.ofList value) with
            | none => .refused
            | some given => scan grammar given positionals rest
        | [] =>
          if name = "help" then .help
          else if name = "version" ∧ grammar.version then .version
          else match grammar.options.find? fun o => o.long = name with
            | none => .refused
            | some spec =>
              if spec.values.isSome then
                match rest with
                | [] => .refused
                | value :: rest =>
                  if looksLikeOption value then .refused
                  else match given.add spec value with
                    | none => .refused
                    | some given => scan grammar given positionals rest
              else match given.add spec "" with
                | none => .refused
                | some given => scan grammar given positionals rest
      | '-' :: c :: letters =>
        match scanLetters grammar given (c :: letters) with
        | .help => .help
        | .version => .version
        | .refused => .refused
        | .given given => scan grammar given positionals rest
      | _ =>
        if arg ∈ grammar.subcommands then .entered given arg rest
        else if positionals.length < grammar.positionals then
          scan grammar given (positionals ++ [arg]) rest
        else .refused

theorem scan_ended_positionals {grammar : Grammar} {given given' : Given}
    {positionals positionals' args : List String} (h : positionals.length ≤ grammar.positionals)
    (hs : scan grammar given positionals args = .ended given' positionals') :
    positionals'.length ≤ grammar.positionals := by
  fun_induction scan grammar given positionals args <;> grind

/-! ## Subcommands -/

/-- What is asked of the program. -/
inductive Command where
  /-- Generate a preset, after replacing its chain or its distance function. -/
  | generate (name : String) (ops : List FoldKind) (clear : Bool) (sdf : Option SdfKind)
      (strict : Bool)
  /-- Print the code of a preset. -/
  | print (name : String) (sdfOnly driverOnly : Bool)
  | regenerate (name : String) (strict : Bool)
  | list
  | delete (name : String)
  | kinds
  | watch (strict : Bool)
  deriving DecidableEq

/-- A command with what concerns every command. -/
structure Invocation where
  dir : String
  settings : Option String
  verbose : Bool
  command : Command
  deriving DecidableEq

/-- What a command line says. -/
inductive Request where
  | help
  | version
  /-- It is not well formed. -/
  | usage
  | run (invocation : Invocation)
  deriving DecidableEq

/-- The directory of the presets when none is given. -/
def defaultDir : String := "Shaders"

/-- The options that may stand before or after the name of a subcommand. -/
def globalOptions : List OptionSpec :=
  [.valued "dir" (· ≠ "") false, .valued "settings" (· ≠ "") false, .flag "verbose" (some 'v')]

/-- The options and the number of positional arguments of each subcommand. -/
def subcommands : List (String × List OptionSpec × Nat) :=
  [("generate",
      [.valued "op" (fun s => (FoldKind.parse s).isOk) true, .flag "clear" none,
        .valued "sdf" (fun s => (SdfKind.parse s).isOk) false, .flag "strict" none], 1),
    ("show", [.flag "sdf-only" none, .flag "driver-only" none], 1),
    ("regen", [.flag "strict" none], 1),
    ("list", [], 0),
    ("delete", [], 1),
    ("kinds", [], 0),
    ("watch", [.flag "strict" none], 0)]

/-- The grammar up to the name of a subcommand. -/
def topGrammar : Grammar :=
  ⟨globalOptions, 0, "help" :: subcommands.map Prod.fst, true⟩

/-- The command that a subcommand stands for with these arguments. -/
def Command.ofArguments (subcommand : String) (given : Given) (positionals : List String) :
    Option Command :=
  match subcommand, positionals with
  | "generate", [name] =>
    if given.has "clear" ∧ given.has "op" then none
    else some (.generate name ((given.valuesOf "op").filterMap fun s => (FoldKind.parse s).toOption)
      (given.has "clear") ((given.value? "sdf").bind fun s => (SdfKind.parse s).toOption)
      (given.has "strict"))
  | "show", [name] =>
    if given.has "sdf-only" ∧ given.has "driver-only" then none
    else some (.print name (given.has "sdf-only") (given.has "driver-only"))
  | "regen", [name] => some (.regenerate name (given.has "strict"))
  | "list", [] => some .list
  | "delete", [name] => some (.delete name)
  | "kinds", [] => some .kinds
  | "watch", [] => some (.watch (given.has "strict"))
  | _, _ => none

/-- Read a command line.  Where an option that concerns every subcommand is given on both sides
of its name, the later one counts. -/
def Request.parse (args : List String) : Request :=
  match scan topGrammar [] [] args with
  | .help => .help
  | .version => .version
  | .refused => .usage
  | .ended _ _ => .usage
  | .entered outer subcommand rest =>
    if subcommand = "help" then
      match rest with
      | [] => .help
      | [name] => if name ∈ topGrammar.subcommands then .help else .usage
      | _ => .usage
    else match subcommands.lookup subcommand with
      | none => .usage
      | some (options, positionals) =>
        match scan ⟨globalOptions ++ options, positionals, [], false⟩ [] [] rest with
        | .help => .help
        | .ended inner arguments =>
          match Command.ofArguments subcommand inner arguments with
          | none => .usage
          | some command =>
            let global (long : String) := (inner.value? long).or (outer.value? long)
            .run ⟨(global "dir").getD defaultDir, global "settings",
              inner.has "verbose" || outer.has "verbose", command⟩
        | _ => .usage

end FractalShader.Cli
