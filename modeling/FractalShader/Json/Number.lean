import FractalShader.Decimal.Numeral
import FractalShader.Decimal.Shortest
import FractalShader.Json.Scan

/-!
# Numbers in a JSON text

A number has a whole part, and may have a fraction and an exponent.  Its form is
checked first; what it is worth is asked only where a message shows it.

* `skipNumber_shorter` — passing over a number consumes it.
-/

namespace FractalShader.Json

/-! ## Form -/

def isDigit (c : Char) : Bool := '0' ≤ c && c ≤ '9'

/-- Does the text start with a digit? -/
def startsDigit (cs : List Char) : Bool := cs.head?.any isDigit

/-- What is left after digits. -/
def skipDigits (cs : List Char) : List Char := cs.dropWhile isDigit

theorem skipDigits_length_le (cs : List Char) : (skipDigits cs).length ≤ cs.length :=
  (List.dropWhile_sublist isDigit).length_le

/-- Pass over the whole part of a number: a zero alone, or digits that start with another. -/
def skipWhole (atEnd : Cause) : List Char → Except Fault (List Char)
  | [] => .error (.before atEnd [])
  | c :: cs =>
    if c = '0' then
      if startsDigit cs then .error (.after .invalidNumber cs) else .ok cs
    else if isDigit c then .ok (skipDigits cs)
    else .error (.after .invalidNumber (c :: cs))

/-- Pass over the fraction of a number, where there is one. -/
def skipFraction (atEnd : Cause) : List Char → Except Fault (List Char)
  | [] => .ok []
  | c :: cs =>
    if c ≠ '.' then .ok (c :: cs)
    else if startsDigit cs then .ok (skipDigits cs)
    else .error (.after (if cs = [] then atEnd else .invalidNumber) cs)

/-- Pass over the exponent of a number, where there is one. -/
def skipExponent (atEnd : Cause) : List Char → Except Fault (List Char)
  | [] => .ok []
  | c :: cs =>
    if c ≠ 'e' ∧ c ≠ 'E' then .ok (c :: cs)
    else
      let ds := match cs with
        | s :: ds => if s = '+' ∨ s = '-' then ds else s :: ds
        | [] => []
      match ds with
      | [] => .error (.before atEnd [])
      | d :: ds => if isDigit d then .ok (skipDigits ds) else .error (.after .invalidNumber (d :: ds))

/-- Pass over a number after its sign; `atEnd` is the cause where the text ends inside it. -/
def skipNumber (atEnd : Cause) (cs : List Char) : Except Fault (List Char) :=
  match skipWhole atEnd cs with
  | .error e => .error e
  | .ok rest =>
    match skipFraction atEnd rest with
    | .error e => .error e
    | .ok rest => skipExponent atEnd rest

theorem skipWhole_shorter {atEnd : Cause} {cs rest : List Char} (h : skipWhole atEnd cs = .ok rest) :
    rest.length < cs.length := by
  unfold skipWhole at h
  split at h
  · exact absurd h (by simp)
  · next c cs =>
    have := skipDigits_length_le cs
    split at h
    · split at h
      · exact absurd h (by simp)
      · cases h; simp
    · split at h
      · cases h; simp only [List.length_cons]; omega
      · exact absurd h (by simp)

theorem skipFraction_length_le {atEnd : Cause} {cs rest : List Char}
    (h : skipFraction atEnd cs = .ok rest) : rest.length ≤ cs.length := by
  unfold skipFraction at h
  split at h
  · cases h; simp
  · next c cs =>
    have := skipDigits_length_le cs
    split at h
    · cases h; simp
    · split at h
      · cases h; simp only [List.length_cons]; omega
      · exact absurd h (by simp)

theorem skipExponent_length_le {atEnd : Cause} {cs rest : List Char}
    (h : skipExponent atEnd cs = .ok rest) : rest.length ≤ cs.length := by
  unfold skipExponent at h
  split at h
  · cases h; simp
  · next c cs =>
    split at h
    · cases h; simp
    · cases cs with
      | nil => simp at h
      | cons s cs =>
        by_cases hs : s = '+' ∨ s = '-'
        · simp only [hs, if_true] at h
          cases cs with
          | nil => simp at h
          | cons d ds =>
            have := skipDigits_length_le ds
            simp only at h
            split at h
            · cases h; simp only [List.length_cons]; omega
            · exact absurd h (by simp)
        · simp only [hs, if_false] at h
          have := skipDigits_length_le cs
          split at h
          · cases h; simp only [List.length_cons]; omega
          · exact absurd h (by simp)

theorem skipNumber_shorter {atEnd : Cause} {cs rest : List Char}
    (h : skipNumber atEnd cs = .ok rest) : rest.length < cs.length := by
  unfold skipNumber at h
  split at h
  · exact absurd h (by simp)
  · next h1 =>
    have := skipWhole_shorter h1
    split at h
    · exact absurd h (by simp)
    · next h2 =>
      have := skipFraction_length_le h2
      have := skipExponent_length_le h
      omega

/-! ## Worth -/

/-- Numbers in messages: up to four zeros after the point, up to sixteen places before it, else
an exponent of as many digits as it needs. -/
def numberLayout : Decimal.Layout := ⟨4, 16⟩

/-- The least integer that is shown as one. -/
def leastInteger : Int := -0x8000000000000000

/-- The greatest integer that is shown as one. -/
def greatestInteger : Int := Decimal.greatestWord

/-- The parts of a well-formed numeral. -/
def numeralOf (text : List Char) : Decimal.Numeral :=
  let isMark : Char → Bool := fun c => c = 'e' || c = 'E'
  let base := text.takeWhile fun c => !isMark c
  let exponent := (text.dropWhile fun c => !isMark c).drop 1
  { whole := base.takeWhile isDigit
    fraction := (base.dropWhile isDigit).drop 1
    exponent := exponent.dropWhile fun c => !isDigit c
    lowers := exponent.head? = some '-' }

/-- What a well-formed numeral is: an integer of 64 bits, or a floating point number; where it is
beyond those, the number of its characters that are left when that is noticed.  A negative zero
is no integer. -/
def numberFound (negative : Bool) (text : List Char) : Except Nat Found :=
  let numeral := numeralOf text
  let digits := Decimal.digitsValue numeral.whole
  let n : Int := if negative then -(digits : Int) else digits
  if numeral.whole = text ∧ ¬(negative ∧ digits = 0) ∧ leastInteger ≤ n ∧ n ≤ greatestInteger then
    .ok (.integer n)
  else match numeral.value with
    | some x => .ok (.floating (String.ofList (x.text numberLayout negative)))
    | none => .error numeral.unread

end FractalShader.Json
