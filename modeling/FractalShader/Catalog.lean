import FractalShader.Kind

/-!
# The catalog

What each kind stands for in generated shader code.  A fold is one call of the
shader library that moves the point `new_p`, or the orbit statement, which
accumulates colour and leaves the point alone; a distance function is the
expression that the generated function returns.  The catalog has nothing for
`unknown`.

* `emission?_eq_none_iff`, `returned?_eq_none_iff` — the catalog is complete:
  only `unknown` is missing.
-/

namespace FractalShader

/-- A call of a function of the shader library, with its argument list. -/
structure LibraryCall where
  function : String
  /-- The argument list, parentheses included. -/
  arguments : String
  deriving DecidableEq

def LibraryCall.expr (c : LibraryCall) : String := "library." ++ c.function ++ c.arguments

/-- What a fold contributes to the body of the iteration. -/
inductive Emission where
  /-- The point is replaced by the value of a call. -/
  | transform (call : LibraryCall)
  /-- Colour is accumulated. -/
  | orbit
  deriving DecidableEq

/-- The statement of the orbit marker. -/
def orbitStatement : String := "outputColor = library.orbitByType(outputColor, new_p);"

/-- What stands in generated code for a kind that the catalog does not know. -/
def sentinel : String := "Error"

namespace FoldKind

/-- What the catalog has for a fold. -/
def emission? : FoldKind → Option Emission
  | planeFold => some (.transform ⟨"planeFold", "(new_p, float3(0, 0, -1), -1)"⟩)
  | absFold => some (.transform ⟨"absFold", "(new_p, float3(0.0f, 0.0f, 0.0f))"⟩)
  | sierpinskiFold => some (.transform ⟨"sierpinskiFold", "(new_p)"⟩)
  | mengerFold => some (.transform ⟨"mengerFold", "(new_p)"⟩)
  | sphereFold => some (.transform ⟨"sphereFold", "(new_p, 0.5, 1.0f)"⟩)
  | boxFold => some (.transform ⟨"boxFold", "(new_p, library.FoldSize)"⟩)
  | rotXFold => some (.transform ⟨"rotXFold", "(new_p, library.FoldAngles.x)"⟩)
  | rotYFold => some (.transform ⟨"rotYFold", "(new_p, library.FoldAngles.y)"⟩)
  | rotZFold => some (.transform ⟨"rotZFold", "(new_p, library.FoldAngles.z)"⟩)
  | scaleTranslateFold =>
    some (.transform ⟨"scaleTranslateFold",
      "(new_p, library.FoldingScale, library.Power * library.FoldOffset)"⟩)
  | scaleOriginFold => some (.transform ⟨"scaleOriginFold", "(new_p, library.FoldingScale)"⟩)
  | orbitColoring => some .orbit
  | unknown => none

theorem emission?_eq_none_iff {k : FoldKind} : k.emission? = none ↔ k = unknown := by
  cases k <;> simp [emission?]

end FoldKind

namespace SdfKind

/-- The distance to a shape of the library: the nearer of `d` and the shape, with the length of
the point beside it. -/
def shapeDistance (function arguments : String) : String :=
  "float2(min(d, library." ++ function ++ "(new_p, " ++ arguments ++ ")), length(new_p))"

/-- What the catalog has for a distance function: the expression that is returned.  The two
Julia sets are served by each other's library functions. -/
def returned? : SdfKind → Option String
  | cone => some (shapeDistance "sdCone" "library.Offset")
  | hexPrism => some (shapeDistance "sdHexPrism" "float2(library.Offset, library.Offset)")
  | sphere => some (shapeDistance "sdSphere" "library.Offset")
  | capsule => some (shapeDistance "sdCapsule" "library.FoldingScale, library.Offset")
  | torus => some (shapeDistance "sdTorus" "float2(library.Offset, library.Offset)")
  | box =>
    some (shapeDistance "sdBox" "float3(library.Offset, library.Offset, library.Offset)")
  | tetrahedron => some (shapeDistance "sdTetrahedron" "library.Offset")
  | infCross => some (shapeDistance "sdInfCross" "library.Offset")
  | infCrossXY => some (shapeDistance "sdInfCrossXY" "library.Offset")
  | infLine => some (shapeDistance "sdInfLine" "library.Offset")
  | julia => some "library.sdJulia2(new_p, outputColor)"
  | julia2 => some "library.sdJulia(new_p, outputColor)"
  | mandelbrot => some "library.sdMondelbrot(new_p, outputColor)"
  | unknown => none

theorem returned?_eq_none_iff {k : SdfKind} : k.returned? = none ↔ k = unknown := by
  cases k <;> simp [returned?]

end SdfKind

end FractalShader
