import FractalShader.Decimal.Binary64

/-!
# Shortest decimal text of a binary number

A number of binary64 is shown with the fewest digits that read back as it.

* `layout_length` — the digits themselves are never lost in the layout.
-/

namespace FractalShader.Decimal

/-! ## Shortest digits -/

/-- Is `c · 10 ^ k` among the reals that round to `x`?  Both ends of that interval belong to it
exactly when the mantissa is even. -/
def Binary64.holds (x : Binary64) (c : Nat) (k : Int) : Bool :=
  let unit := x.exponent - 2
  let a := twoTo unit * tenTo (-k)
  let b := twoTo (-unit) * tenTo k
  let below := if x.mantissa = hiddenBit ∧ leastExponent < x.exponent then 1 else 2
  let low := (4 * x.mantissa - below) * a
  let high := (4 * x.mantissa + 2) * a
  if x.mantissa % 2 = 0 then low ≤ c * b && c * b ≤ high else low < c * b && c * b < high

/-- The points of the grid `10 ^ k` below and above `x`, the nearer one first. -/
def Binary64.neighbours (x : Binary64) (k : Int) : List Nat :=
  let n := x.mantissa * twoTo x.exponent * tenTo (-k)
  let d := twoTo (-x.exponent) * tenTo k
  let near := roundDiv n d
  if near = n / d then [near, near + 1] else [near, near - 1]

/-- The nearest point of the coarsest decimal grid that has one in the interval of `x`, looking
at the `fuel` grids from `10 ^ k` downwards. -/
def Binary64.shortestFrom (x : Binary64) : Nat → Int → Nat × Int
  | 0, k => (x.mantissa, k)
  | fuel + 1, k =>
    match (x.neighbours k).find? fun c => x.holds c k with
    | some c => (c, k)
    | none => x.shortestFrom fuel (k - 1)

/-- The fewest digits that read back as `x`, with the power of ten of the last one. -/
def Binary64.shortest (x : Binary64) : Nat × Int :=
  if x.mantissa = 0 then (0, 0) else x.shortestFrom 700 310

/-! ## Layout -/

/-- How a number is laid out: up to which place it is written without an exponent. -/
structure Layout where
  /-- The point may stand this many places before the first digit … -/
  leadingZeros : Int
  /-- … and this many places after it. -/
  places : Int

/-- `digits` with the point after `point` places, or with an exponent where that would need too
many zeros. -/
def layout (f : Layout) (digits : List Char) (point : Int) : List Char :=
  let n : Int := digits.length
  if -f.leadingZeros ≤ point ∧ point ≤ 0 then
    ['0', '.'] ++ List.replicate (-point).toNat '0' ++ digits
  else if 0 < point ∧ point ≤ f.places then
    if n ≤ point then digits ++ List.replicate (point - n).toNat '0' ++ ['.', '0']
    else digits.take point.toNat ++ ['.'] ++ digits.drop point.toNat
  else
    digits.take 1 ++ (if 1 < n then ['.'] else []) ++ digits.drop 1
      ++ ['e', if point - 1 < 0 then '-' else '+'] ++ Nat.toDigits 10 (point - 1).natAbs

theorem layout_length (f : Layout) (digits : List Char) (point : Int) :
    digits.length ≤ (layout f digits point).length := by
  unfold layout
  grind

/-- The text of `x` with its sign. -/
def Binary64.text (f : Layout) (negative : Bool) (x : Binary64) : List Char :=
  let (c, k) := x.shortest
  let digits := Nat.toDigits 10 c
  (if negative then ['-'] else [])
    ++ layout f digits (if c = 0 then 1 else (digits.length : Int) + k)

end FractalShader.Decimal
