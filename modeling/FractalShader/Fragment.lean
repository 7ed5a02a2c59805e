import FractalShader.Catalog
import FractalShader.Code
import FractalShader.Config
import FractalShader.Settings

/-!
# Shader fragments

A preset is compiled to two fragments of shader code.  The *distance fragment*
is the function `sdf`, whose loop applies the fold chain; the *driver* is a
fixed wrapper that includes the shader library, the distance fragment and the
ray marcher.

A kind that the catalog does not know is an error when generation is strict;
otherwise the sentinel stands in its place and a warning names it.

* `chain_strict` — strict generation of a chain fails exactly on an unknown
  fold, and what it gives is what lenient generation gives.
-/

namespace FractalShader

/-- A place where the sentinel stands for an unknown kind. -/
inductive Warning where
  /-- The chain entry of this index. -/
  | operation (index : Nat)
  | terminal
  deriving DecidableEq

/-- The place that a warning is about, as it is named in messages. -/
def Warning.place : Warning → String
  | operation index => "operation " ++ Nat.repr index
  | terminal => "terminal"

def Warning.message (w : Warning) : String :=
  w.place ++ ": unknown kind 'Unknown', emitted '" ++ sentinel ++ "'"

/-- The two fragments of a preset, with what had to be replaced by the sentinel. -/
structure Generated where
  driver : String
  sdf : String
  warnings : List Warning
  deriving DecidableEq

namespace Fragment

/-! ## The distance fragment -/

/-- What the catalog has, or the sentinel with a warning; in strict mode a miss is an error. -/
def orSentinel (strict : Bool) (place : Warning) : Option String →
    Except PresetError (String × List Warning)
  | some expr => .ok (expr, [])
  | none => if strict then .error (.unknownKind "Unknown") else .ok (sentinel, [place])

/-- The statement of the chain entry `kind`, which stands at `index`. -/
def statement (strict : Bool) (index : Nat) (kind : FoldKind) :
    Except PresetError (String × List Warning) :=
  match kind.emission? with
  | some .orbit => .ok (orbitStatement, [])
  | some (.transform call) => .ok ("new_p = " ++ call.expr ++ ";", [])
  | none =>
    match orSentinel strict (.operation index) none with
    | .ok (expr, warnings) => .ok ("new_p = " ++ expr ++ ";", warnings)
    | .error e => .error e

/-- One statement for each entry of a chain that starts at `index`, never more, never merged. -/
def chain (strict : Bool) : Nat → List FoldKind → Except PresetError (List String × List Warning)
  | _, [] => .ok ([], [])
  | index, kind :: kinds =>
    match statement strict index kind with
    | .error e => .error e
    | .ok (line, here) =>
      match chain strict (index + 1) kinds with
      | .error e => .error e
      | .ok (lines, later) => .ok (line :: lines, here ++ later)

/-- The code of the distance fragment around its statements and the expression it returns. -/
def sdfCode (statements : List String) (returned : String) : Code :=
  [.opening "float2 sdf(float3 p) \x7b",
    .line "outputColor = library.orbitInitInf();",
    .line "float4 new_p = float4(p, 1.0f);",
    .line "float d = 1e20;",
    .opening "for (int i = 0; i < library.Iterations; i++) \x7b"]
  ++ statements.map .line
  ++ [.blank,
    .closing "\x7d",
    .line ("return " ++ returned ++ ";"),
    .closing "\x7d"]

/-- The distance fragment of a configuration. -/
def sdf (strict : Bool) (c : Config) : Except PresetError (Code × List Warning) :=
  match chain strict 0 c.operations with
  | .error e => .error e
  | .ok (lines, warnings) =>
    match orSentinel strict .terminal c.terminal.returned? with
    | .error e => .error e
    | .ok (expr, last) => .ok (sdfCode lines expr, warnings ++ last)

/-! ## The driver -/

/-- A directive that includes the fragment of this stem. -/
def includeLine (settings : Settings) (stem : String) : CodeItem :=
  .line ("#include \"" ++ settings.includePath stem ++ "\"")

/-- The name of the distance fragment of the preset `name`, without its extension. -/
def sdfStem (name : String) : String := name ++ "SDF"

/-- The driver of the preset `name`. -/
def driverCode (settings : Settings) (name : String) : Code :=
  [includeLine settings settings.libraryInclude,
    .blank,
    .line "struct SDF \x7b",
    .line "SDFractal library;",
    .line "float3 outputColor;",
    .blank,
    includeLine settings (sdfStem name),
    .line "\x7d;",
    .blank,
    includeLine settings settings.driverInclude]

/-! ## Both -/

/-- Both fragments of a configuration. -/
def generate (c : Config) (settings : Settings) (strict : Bool) :
    Except PresetError Generated :=
  match sdf strict c with
  | .error e => .error e
  | .ok (code, warnings) =>
    .ok ⟨(driverCode settings c.name).text, code.text, warnings⟩

theorem statement_strict (index : Nat) (kind : FoldKind) :
    statement true index kind =
      if kind = .unknown then .error (.unknownKind "Unknown") else statement false index kind := by
  cases kind <;> rfl

theorem chain_strict (index : Nat) (kinds : List FoldKind) :
    chain true index kinds =
      if .unknown ∈ kinds then .error (.unknownKind "Unknown")
      else chain false index kinds := by
  induction kinds generalizing index with
  | nil => rfl
  | cons kind kinds ih =>
    by_cases hk : kind = .unknown
    · subst hk
      simp [chain, statement, FoldKind.emission?, orSentinel]
    · have hne : FoldKind.unknown ≠ kind := fun h => hk h.symm
      simp only [chain, statement_strict, hk, if_false, ih, List.mem_cons, hne, false_or]
      cases hst : statement false index kind with
      | error e => cases kind <;> simp [statement, FoldKind.emission?, orSentinel] at hst
      | ok r => by_cases hu : .unknown ∈ kinds <;> simp [hu]

end Fragment

end FractalShader
