/-!
# Binary64

The finite numbers of the binary format of 64 bits, without their sign, and the
rounding of exact quotients to them.  All arithmetic is on natural numbers, so
nothing here rounds unless it says so.

* `roundDiv_near` — a rounded quotient is within half a unit of the exact one;
* `roundDiv_tie` — a quotient half way between two numbers goes to the even one;
* `roundDiv_mul` — an exact quotient is not moved.
-/

namespace FractalShader.Decimal

/-! ## Rounding -/

/-- `n / d` rounded to the nearest natural number, a half going to the even neighbour. -/
def roundDiv (n d : Nat) : Nat :=
  let q := n / d
  let r := n % d
  if 2 * r < d ∨ (2 * r = d ∧ q % 2 = 0) then q else q + 1

theorem roundDiv_near (n d : Nat) (h : 0 < d) :
    2 * (d * roundDiv n d) ≤ 2 * n + d ∧ 2 * n ≤ 2 * (d * roundDiv n d) + d := by
  have he : d * (n / d) + n % d = n := Nat.div_add_mod n d
  have hr : n % d < d := Nat.mod_lt n h
  have hs : d * (n / d + 1) = d * (n / d) + d := Nat.mul_succ d (n / d)
  simp only [roundDiv]
  split
  · omega
  · rw [hs]
    omega

theorem roundDiv_tie {n d : Nat} (h : 2 * (n % d) = d) : roundDiv n d % 2 = 0 := by
  simp only [roundDiv]
  split <;> omega

theorem roundDiv_mul (q d : Nat) (h : 0 < d) : roundDiv (q * d) d = q := by
  simp [roundDiv, Nat.mul_div_cancel q h, h]

/-! ## Numbers -/

/-- The power `2 ^ e`, one where `e` is negative. -/
def twoTo (e : Int) : Nat := Nat.pow 2 e.toNat

/-- The power `10 ^ e`, one where `e` is negative. -/
def tenTo (e : Int) : Nat := Nat.pow 10 e.toNat

/-- The number `mantissa · 2 ^ exponent`, without its sign.  An exponent above
`greatestExponent` stands for what is beyond the finite numbers. -/
structure Binary64 where
  mantissa : Nat
  exponent : Int
  deriving DecidableEq

/-- The least mantissa of a number whose exponent is not the least one: two to the power of 52. -/
def hiddenBit : Nat := 0x10000000000000

/-- The least exponent of binary64: there the mantissa may be small. -/
def leastExponent : Int := -1074

/-- The greatest exponent of binary64. -/
def greatestExponent : Int := 971

namespace Binary64

def isFinite (x : Binary64) : Bool := x.exponent ≤ greatestExponent

/-- The number as a quotient of natural numbers. -/
def quotient (x : Binary64) : Nat × Nat := (x.mantissa * twoTo x.exponent, twoTo (-x.exponent))

/-- The number nearest to `num / den`. -/
def nearest (num den : Nat) : Binary64 :=
  if num = 0 then ⟨0, leastExponent⟩
  else
    let scaled (q : Int) : Nat × Nat := (num * twoTo (-q), den * twoTo q)
    let q := max ((num.log2 : Int) - den.log2 - 52) leastExponent
    let (n, d) := scaled q
    let q := if n / d < hiddenBit ∧ leastExponent < q then q - 1 else q
    let (n, d) := scaled q
    let m := roundDiv n d
    if m = 2 * hiddenBit then ⟨hiddenBit, q + 1⟩ else ⟨m, q⟩

/-- The number nearest to a natural number. -/
def ofNat (n : Nat) : Binary64 := nearest n 1

/-- The product of two numbers, rounded once. -/
def times (x y : Binary64) : Binary64 :=
  nearest (x.quotient.1 * y.quotient.1) (x.quotient.2 * y.quotient.2)

/-- The quotient of two numbers, rounded once. -/
def dividedBy (x y : Binary64) : Binary64 :=
  nearest (x.quotient.1 * y.quotient.2) (x.quotient.2 * y.quotient.1)

end Binary64

end FractalShader.Decimal
