/-!
# The vocabulary of a preset: fold operations and distance functions

A preset is a chain of *folds*, applied to a point once per iteration, and one
terminal *distance function*.  Both vocabularies are open: a description
document may carry a tag this library does not know, and such a tag is kept as
`unknown`.

What is proved here:

* `FoldKind.ofTag_tag`, `SdfKind.ofTag_tag` — reading the tag of a kind gives the
  kind back, `unknown` included; `tag_ofTag` — what is read as a known kind is its
  tag;
* `FoldKind.tag_eq_name`, `SdfKind.tag_eq_name` — kinds are tagged by the names that
  are printed;
* `FoldKind.mem_all`, `SdfKind.mem_all` — the lists `all` hold every kind but
  `unknown`.
-/

namespace FractalShader

/-! ## Folds -/

/-- One entry of a fold chain. -/
inductive FoldKind where
  | planeFold
  | absFold
  | sierpinskiFold
  | mengerFold
  | sphereFold
  | boxFold
  | rotXFold
  | rotYFold
  | rotZFold
  | scaleTranslateFold
  | scaleOriginFold
  | orbitColoring
  | unknown
  deriving DecidableEq

namespace FoldKind

/-- The name of a fold, as it is printed. -/
def name : FoldKind → String
  | planeFold => "PlaneFold"
  | absFold => "AbsFold"
  | sierpinskiFold => "SierpinskiFold"
  | mengerFold => "MengerFold"
  | sphereFold => "SphereFold"
  | boxFold => "BoxFold"
  | rotXFold => "RotXFold"
  | rotYFold => "RotYFold"
  | rotZFold => "RotZFold"
  | scaleTranslateFold => "ScaleTranslateFold"
  | scaleOriginFold => "ScaleOriginFold"
  | orbitColoring => "OrbitColoring"
  | unknown => "Unknown"

/-- Every fold the catalog can emit, in the order in which they are listed. -/
def all : List FoldKind :=
  [planeFold, absFold, sierpinskiFold, mengerFold, sphereFold, boxFold, rotXFold, rotYFold,
    rotZFold, scaleTranslateFold, scaleOriginFold, orbitColoring]

/-- The tag of a fold in a description document. -/
def tag : FoldKind → String
  | planeFold => "PlaneFold"
  | absFold => "AbsFold"
  | sierpinskiFold => "SierpinskiFold"
  | mengerFold => "MengerFold"
  | sphereFold => "SphereFold"
  | boxFold => "BoxFold"
  | rotXFold => "RotXFold"
  | rotYFold => "RotYFold"
  | rotZFold => "RotZFold"
  | scaleTranslateFold => "ScaleTranslateFold"
  | scaleOriginFold => "ScaleOriginFold"
  | orbitColoring => "OrbitColoring"
  | unknown => "Unknown"

/-- The fold that a tag in a description document stands for; every other tag is read as
`unknown`. -/
def ofTag : String → FoldKind
  | "PlaneFold" => planeFold
  | "AbsFold" => absFold
  | "SierpinskiFold" => sierpinskiFold
  | "MengerFold" => mengerFold
  | "SphereFold" => sphereFold
  | "BoxFold" => boxFold
  | "RotXFold" => rotXFold
  | "RotYFold" => rotYFold
  | "RotZFold" => rotZFold
  | "ScaleTranslateFold" => scaleTranslateFold
  | "ScaleOriginFold" => scaleOriginFold
  | "OrbitColoring" => orbitColoring
  | _ => unknown

/-- The orbit marker accumulates colour; it does not move the point. -/
def isOrbit (k : FoldKind) : Bool := k = orbitColoring

theorem ofTag_tag (k : FoldKind) : ofTag k.tag = k := by
  cases k <;> rfl

theorem tag_ofTag {t : String} (h : ofTag t ≠ unknown) : (ofTag t).tag = t := by
  revert h
  unfold ofTag
  split <;> simp [tag]

theorem tag_eq_name (k : FoldKind) : k.tag = k.name := by
  cases k <;> rfl

theorem mem_all {k : FoldKind} : k ∈ all ↔ k ≠ unknown := by
  cases k <;> decide

end FoldKind

/-! ## Distance functions -/

/-- The distance function that ends a preset. -/
inductive SdfKind where
  | cone
  | hexPrism
  | sphere
  | capsule
  | torus
  | box
  | tetrahedron
  | infCross
  | infCrossXY
  | infLine
  | julia
  | julia2
  | mandelbrot
  | unknown
  deriving DecidableEq

namespace SdfKind

/-- The name of a distance function, as it is printed. -/
def name : SdfKind → String
  | cone => "Cone"
  | hexPrism => "HexPrism"
  | sphere => "Sphere"
  | capsule => "Capsule"
  | torus => "Torus"
  | box => "Box"
  | tetrahedron => "Tetrahedron"
  | infCross => "InfCross"
  | infCrossXY => "InfCrossXY"
  | infLine => "InfLine"
  | julia => "Julia"
  | julia2 => "Julia2"
  | mandelbrot => "Mandelbrot"
  | unknown => "Unknown"

/-- Every distance function the catalog can emit, in the order in which they are listed. -/
def all : List SdfKind :=
  [cone, hexPrism, sphere, capsule, torus, box, tetrahedron, infCross, infCrossXY, infLine,
    julia, julia2, mandelbrot]

/-- The tag of a distance function in a description document. -/
def tag : SdfKind → String
  | cone => "Cone"
  | hexPrism => "HexPrism"
  | sphere => "Sphere"
  | capsule => "Capsule"
  | torus => "Torus"
  | box => "Box"
  | tetrahedron => "Tetrahedron"
  | infCross => "InfCross"
  | infCrossXY => "InfCrossXY"
  | infLine => "InfLine"
  | julia => "Julia"
  | julia2 => "Julia2"
  | mandelbrot => "Mandelbrot"
  | unknown => "Unknown"

/-- The distance function that a tag in a description document stands for; every other tag is read
as `unknown`. -/
def ofTag : String → SdfKind
  | "Cone" => cone
  | "HexPrism" => hexPrism
  | "Sphere" => sphere
  | "Capsule" => capsule
  | "Torus" => torus
  | "Box" => box
  | "Tetrahedron" => tetrahedron
  | "InfCross" => infCross
  | "InfCrossXY" => infCrossXY
  | "InfLine" => infLine
  | "Julia" => julia
  | "Julia2" => julia2
  | "Mandelbrot" => mandelbrot
  | _ => unknown

/-- A preset that names no distance function ends in the Mandelbrot set. -/
instance : Inhabited SdfKind := ⟨mandelbrot⟩

theorem ofTag_tag (k : SdfKind) : ofTag k.tag = k := by
  cases k <;> rfl

theorem tag_ofTag {t : String} (h : ofTag t ≠ unknown) : (ofTag t).tag = t := by
  revert h
  unfold ofTag
  split <;> simp [tag]

theorem tag_eq_name (k : SdfKind) : k.tag = k.name := by
  cases k <;> rfl

theorem mem_all {k : SdfKind} : k ∈ all ↔ k ≠ unknown := by
  cases k <;> decide

end SdfKind

end FractalShader
