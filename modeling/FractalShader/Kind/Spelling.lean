import FractalShader.Kind
import FractalShader.Error

/-!
# Spellings of kinds

On a command line a kind may be written with hyphens or underscores between its
words and in any mixture of upper and lower case: `box-fold`, `BOX_FOLD` and
`BoxFold` are one kind.  Only ASCII letters change case, so a look-alike from
another alphabet never names a kind.  No spelling names `unknown`.
-/

namespace FractalShader

/-- What two spellings of one kind have in common: separators are dropped and ASCII letters
are in lower case. -/
def normalizeSpelling (s : String) : String :=
  String.ofList ((s.toList.filter fun c => c ≠ '-' ∧ c ≠ '_').map Char.toLower)

/-- The fold that `s` spells. -/
def FoldKind.parse (s : String) : Except PresetError FoldKind :=
  match FoldKind.all.find? fun k => normalizeSpelling k.name = normalizeSpelling s with
  | some k => .ok k
  | none => .error (.unknownKind ("fold '" ++ s ++ "'"))

/-- The distance function that `s` spells. -/
def SdfKind.parse (s : String) : Except PresetError SdfKind :=
  match SdfKind.all.find? fun k => normalizeSpelling k.name = normalizeSpelling s with
  | some k => .ok k
  | none => .error (.unknownKind ("sdf '" ++ s ++ "'"))

/-- Spelling a known fold by its own name names it. -/
theorem FoldKind.parse_name {k : FoldKind} (h : k ∈ FoldKind.all) :
    FoldKind.parse k.name = .ok k := by
  cases k <;> first | rfl | simp [FoldKind.mem_all] at h

/-- Spelling a known distance function by its own name names it. -/
theorem SdfKind.parse_name {k : SdfKind} (h : k ∈ SdfKind.all) :
    SdfKind.parse k.name = .ok k := by
  cases k <;> first | rfl | simp [SdfKind.mem_all] at h

end FractalShader
