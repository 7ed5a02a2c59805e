import FractalShader.Json.Number

/-!
# Passing over a value

The value of a member that nobody asked for is checked for its form alone: it
may be nested to any depth, its strings may hold half a surrogate pair and its
numbers may be of any size.  The brackets that are open are kept on a stack, so
that the depth of a text is no limit.

* `skipScalar_shorter`, `skip_shorter` — passing over a value consumes it.
-/

namespace FractalShader.Json

/-! ## Single values -/

/-- Read the colon between the key and the value of a member. -/
def readColon : Reader Unit := fun cs =>
  match skipBlank cs with
  | [] => .error (.before .endInObject [])
  | c :: rest => if c = ':' then .ok ((), rest) else .error (.after .expectedColon (c :: rest))

theorem readColon_shorter {cs rest : List Char} {u : Unit} (h : readColon cs = .ok (u, rest)) :
    rest.length < cs.length := by
  have hle := skipBlank_length_le cs
  unfold readColon at h
  split at h
  · exact absurd h (by simp)
  · next heq =>
    split at h
    · cases h
      simp only [heq, List.length_cons] at hle
      omega
    · exact absurd h (by simp)

/-- Pass over a value that is neither a list nor an object and starts with `c`. -/
def skipScalar (c : Char) (rest : List Char) : Except Fault (List Char) :=
  if c = 'n' then (readWord ['u', 'l', 'l'] rest).map Prod.snd
  else if c = 't' then (readWord ['r', 'u', 'e'] rest).map Prod.snd
  else if c = 'f' then (readWord ['a', 'l', 's', 'e'] rest).map Prod.snd
  else if c = '-' then skipNumber .invalidNumber rest
  else if isDigit c then skipNumber .invalidNumber (c :: rest)
  else if c = '"' then skipString rest
  else .error (.after .expectedValue (c :: rest))

theorem readWord_length_le {word cs rest : List Char}
    (h : (readWord word cs).map Prod.snd = .ok rest) : rest.length ≤ cs.length := by
  cases hw : readWord word cs with
  | error e => rw [hw] at h; exact absurd h (by simp [Except.map])
  | ok p =>
    obtain ⟨u, r⟩ := p
    rw [hw] at h
    simp only [Except.map, Except.ok.injEq] at h
    subst h
    simp [readWord_eq_ok hw]

theorem skipScalar_shorter {c : Char} {cs rest : List Char} (h : skipScalar c cs = .ok rest) :
    rest.length ≤ cs.length := by
  unfold skipScalar at h
  split at h
  · exact readWord_length_le h
  · split at h
    · exact readWord_length_le h
    · split at h
      · exact readWord_length_le h
      · split at h
        · exact Nat.le_of_lt (skipNumber_shorter h)
        · split at h
          · have := skipNumber_shorter h
            simp only [List.length_cons] at this
            omega
          · split at h
            · exact Nat.le_of_lt (skipString_shorter h)
            · exact absurd h (by simp)

/-! ## Nested values -/

/-- A bracket that is open. -/
inductive Bracket where
  | list
  | object
  deriving DecidableEq

namespace Bracket

def close : Bracket → Char
  | list => ']'
  | object => '\x7d'

/-- The fault where the text ends inside the bracket. -/
def atEnd : Bracket → Cause
  | list => .endInList
  | object => .endInObject

/-- The fault where neither a comma nor the closing bracket follows. -/
def missing : Bracket → Cause
  | list => .expectedCommaOrBracket
  | object => .expectedCommaOrBrace

end Bracket

/-- Pass over what stands before the next value in an open bracket: the key of a member in an
object, nothing in a list. -/
def skipKey (b : Bracket) (cs : List Char) : Except Fault (List Char) :=
  match b with
  | .list => .ok cs
  | .object =>
    match skipBlank cs with
    | [] => .error (.before .endInObject [])
    | c :: rest =>
      if c = '"' then
        match skipString rest with
        | .error e => .error e
        | .ok rest => (readColon rest).map Prod.snd
      else .error (.after .keyMustBeString (c :: rest))

theorem skipKey_length_le {b : Bracket} {cs rest : List Char} (h : skipKey b cs = .ok rest) :
    rest.length ≤ cs.length := by
  have hle := skipBlank_length_le cs
  cases b with
  | list => cases h; exact Nat.le_refl _
  | object =>
    simp only [skipKey] at h
    split at h
    · exact absurd h (by simp)
    · next heq =>
      simp only [heq, List.length_cons] at hle
      split at h
      · split at h
        · exact absurd h (by simp)
        · next hs =>
          have := skipString_shorter hs
          cases hc : readColon _ with
          | error e => rw [hc] at h; exact absurd h (by simp [Except.map])
          | ok p =>
            obtain ⟨u, r⟩ := p
            rw [hc] at h
            simp only [Except.map, Except.ok.injEq] at h
            subst h
            have := readColon_shorter hc
            omega
      · exact absurd h (by simp)

/-- What comes next while a value is passed over. -/
inductive Expecting where
  /-- A value. -/
  | value
  /-- What may stand first in the bracket just opened: its end, or its first entry. -/
  | entry
  /-- What follows a value: a comma, or the end of the innermost bracket. -/
  | more
  deriving DecidableEq

/-- Progress within one character: an entry is looked at before its value is. -/
def Expecting.rank : Expecting → Nat
  | value => 0
  | entry => 1
  | more => 0

/-- Pass over values until no bracket of the stack is open. -/
def skip (stack : List Bracket) (expecting : Expecting) (cs : List Char) :
    Except Fault (List Char) :=
  match expecting, stack with
  | .value, stack =>
    match hb : skipBlank cs with
    | [] => .error (.before .endInValue [])
    | c :: rest =>
      have : (c :: rest).length ≤ cs.length := hb ▸ skipBlank_length_le cs
      if c = '[' then skip (.list :: stack) .entry rest
      else if c = '\x7b' then skip (.object :: stack) .entry rest
      else match h : skipScalar c rest with
        | .error e => .error e
        | .ok rest' =>
          have := skipScalar_shorter h
          skip stack .more rest'
  | .entry, [] => .ok cs
  | .entry, b :: outer =>
    match hb : skipBlank cs with
    | [] => .error (.before b.atEnd [])
    | c :: rest =>
      have : (c :: rest).length ≤ cs.length := hb ▸ skipBlank_length_le cs
      if c = b.close then skip outer .more rest
      else match h : skipKey b (c :: rest) with
        | .error e => .error e
        | .ok rest' =>
          have := skipKey_length_le h
          skip (b :: outer) .value rest'
  | .more, [] => .ok cs
  | .more, b :: outer =>
    match hb : skipBlank cs with
    | [] => .error (.before b.atEnd [])
    | c :: rest =>
      have : (c :: rest).length ≤ cs.length := hb ▸ skipBlank_length_le cs
      if c = ',' then
        match h : skipKey b rest with
        | .error e => .error e
        | .ok rest' =>
          have := skipKey_length_le h
          skip (b :: outer) .value rest'
      else if c = b.close then skip outer .more rest
      else .error (.after b.missing (c :: rest))
termination_by (cs.length, expecting.rank)
decreasing_by
  all_goals simp only [List.length_cons] at *
  all_goals simp only [Prod.lex_def, Expecting.rank]
  all_goals omega

/-- Pass over one value. -/
def skipValue : Reader Unit := fun cs => (skip [] .value cs).map fun rest => ((), rest)

theorem skip_length_le {stack : List Bracket} {expecting : Expecting} {cs rest : List Char}
    (h : skip stack expecting cs = .ok rest) :
    rest.length ≤ cs.length ∧ (expecting = .value → rest.length < cs.length) := by
  fun_induction skip stack expecting cs with
  | case1 | case4 | case7 | case9 | case12 | case13 | case16 => exact absurd h (by simp)
  | case6 | case11 => cases h; simp
  | case2 | case3 | case5 | case8 | case10 | case14 | case15 =>
    rename_i ih
    have := ih h
    simp only [List.length_cons] at *
    grind

theorem skipValue_shorter {cs rest : List Char} {u : Unit} (h : skipValue cs = .ok (u, rest)) :
    rest.length < cs.length := by
  unfold skipValue at h
  cases hs : skip [] .value cs with
  | error e => rw [hs] at h; exact absurd h (by simp [Except.map])
  | ok r =>
    rw [hs] at h
    simp only [Except.map, Except.ok.injEq, Prod.mk.injEq] at h
    exact h.2 ▸ (skip_length_le hs).2 rfl

end FractalShader.Json
