import FractalShader.Decimal.Binary64

/-!
# Decimal numerals

What a numeral such as `12.5e-3` is worth.  Its leading digits are taken as one
natural number as long as they fit a word of 64 bits; the digits after that only
count.  The number is then scaled by the power of ten that is left.  Each of the
two steps rounds, so a numeral of more than fifteen digits, or one that is
scaled far, may be worth a neighbour of the number nearest to it.

* `gather_of_fits` — digits that fit a word are all taken;
* `gather_le` — what is taken always fits a word.
-/

namespace FractalShader.Decimal

/-! ## Digits -/

/-- The value of a decimal digit. -/
def digitValue (c : Char) : Nat := c.toNat - '0'.toNat

/-- The value of decimal digits. -/
def digitsValue (ds : List Char) : Nat := ds.foldl (fun n c => 10 * n + digitValue c) 0

/-- The greatest number that fits a word of 64 bits. -/
def greatestWord : Nat := 0xffffffffffffffff

/-- Append digits to `n` as long as the number fits a word; the answer is the number and how many
digits were taken. -/
def gather (n : Nat) : List Char → Nat × Nat
  | [] => (n, 0)
  | c :: cs =>
    let next := 10 * n + digitValue c
    if next ≤ greatestWord then ((gather next cs).1, (gather next cs).2 + 1) else (n, 0)

theorem gather_le {n : Nat} (h : n ≤ greatestWord) (cs : List Char) :
    (gather n cs).1 ≤ greatestWord := by
  induction cs generalizing n with
  | nil => exact h
  | cons c cs ih =>
    rw [gather]
    split
    · next hn => exact ih hn
    · exact h

theorem le_foldl_digits (n : Nat) (cs : List Char) :
    n ≤ cs.foldl (fun n c => 10 * n + digitValue c) n := by
  induction cs generalizing n with
  | nil => exact Nat.le_refl n
  | cons c cs ih =>
    have := ih (10 * n + digitValue c)
    simp only [List.foldl_cons]
    omega

theorem gather_of_fits {n : Nat} {cs : List Char}
    (h : cs.foldl (fun n c => 10 * n + digitValue c) n ≤ greatestWord) :
    gather n cs = (cs.foldl (fun n c => 10 * n + digitValue c) n, cs.length) := by
  induction cs generalizing n with
  | nil => rfl
  | cons c cs ih =>
    rw [List.foldl_cons] at h
    rw [gather, if_pos (Nat.le_trans (le_foldl_digits _ cs) h), ih h]
    rfl

/-! ## Numerals -/

/-- The parts of a numeral, each as its digits. -/
structure Numeral where
  whole : List Char
  fraction : List Char
  exponent : List Char
  /-- Has the exponent a minus sign? -/
  lowers : Bool
  deriving DecidableEq

namespace Numeral

/-- The leading digits as a natural number. -/
def significand (x : Numeral) : Nat := (gather (gather 0 x.whole).1 x.fraction).1

/-- The power of ten by which the significand is scaled: the digits before the point that were
not taken raise it, those after the point that were taken lower it. -/
def power (x : Numeral) : Int :=
  let taken := gather 0 x.whole
  let e : Int := digitsValue x.exponent
  ((x.whole.length - taken.2 : Nat) : Int) - (gather taken.1 x.fraction).2
    + if x.lowers then -e else e

/-- The greatest power of ten by which a number is scaled at once. -/
def greatestPower : Nat := 308

/-- `x` divided by the power `10 ^ k`, in steps where the power is too great. -/
def lowered (x : Binary64) (k : Nat) : Binary64 :=
  if k ≤ greatestPower then x.dividedBy (.ofNat (tenTo k))
  else if x.mantissa = 0 then x
  else lowered (x.dividedBy (.ofNat (tenTo greatestPower))) (k - greatestPower)
termination_by k
decreasing_by simp [greatestPower] at *; omega

/-- `x` multiplied by the power `10 ^ k`, which may lead beyond the finite numbers. -/
def raised (x : Binary64) (k : Nat) : Option Binary64 :=
  if x.mantissa = 0 then some x
  else if greatestPower < k then none
  else
    let y := x.times (.ofNat (tenTo k))
    if y.isFinite then some y else none

/-- What a numeral is worth, or `none` when it is beyond the finite numbers. -/
def value (x : Numeral) : Option Binary64 :=
  let m := Binary64.ofNat x.significand
  if 0 ≤ x.power then raised m x.power.toNat else some (lowered m (-x.power).toNat)

/-! ## Exponents without end -/

/-- The greatest exponent that is read. -/
def greatestExponentRead : Nat := 0x7fffffff

/-- How many digits follow the one with which the exponent, so far `n`, grows too great to be
read; zero if it never does. -/
def leftWhenTooGreat (n : Nat) : List Char → Nat
  | [] => 0
  | c :: cs =>
    let next := 10 * n + digitValue c
    if greatestExponentRead < next then cs.length else leftWhenTooGreat next cs

/-- How many characters of a numeral that is beyond the finite numbers are left where that is
noticed: at its end, or where its exponent grows too great. -/
def unread (x : Numeral) : Nat := if x.lowers then 0 else leftWhenTooGreat 0 x.exponent

end Numeral

end FractalShader.Decimal
