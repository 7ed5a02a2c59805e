import FractalShader.Json.Fault

/-!
# Reading the parts of a JSON text

Readers for blanks, words such as `null`, and strings.  A reader takes the remaining text and gives what it read with what
is left, or a fault.

* `readString_shorter`, `skipString_shorter` — a reader that succeeds leaves
  less than it was given, which is why the readers built from it end.
-/

namespace FractalShader.Json

/-- Reads the start of a text; gives what it read and what is left. -/
abbrev Reader (α : Type) := List Char → Except Fault (α × List Char)

/-! ## Blanks and words -/

/-- A blank of JSON. -/
def isBlank (c : Char) : Bool := c = ' ' || c = '\n' || c = '\t' || c = '\r'

/-- What is left after blanks. -/
def skipBlank (cs : List Char) : List Char := cs.dropWhile isBlank

theorem skipBlank_length_le (cs : List Char) : (skipBlank cs).length ≤ cs.length :=
  (List.dropWhile_sublist isBlank).length_le

/-- Read exactly the characters of `word`. -/
def readWord : List Char → Reader Unit
  | [], cs => .ok ((), cs)
  | _ :: _, [] => .error (.before .endInValue [])
  | w :: ws, c :: cs => if c = w then readWord ws cs else .error (.after .expectedIdent (c :: cs))

theorem readWord_eq_ok {word cs rest : List Char} {u : Unit} (h : readWord word cs = .ok (u, rest)) :
    cs = word ++ rest := by
  induction word generalizing cs with
  | nil => simp_all [readWord]
  | cons w ws ih =>
    cases cs with
    | nil => simp [readWord] at h
    | cons c cs =>
      simp only [readWord] at h
      split at h
      · next hc => rw [ih h, hc]; rfl
      · exact absurd h (by simp)

/-! ## Strings -/

/-- The value of a hexadecimal digit. -/
def hexValue (c : Char) : Option Nat :=
  if '0' ≤ c ∧ c ≤ '9' then some (c.toNat - '0'.toNat)
  else if 'a' ≤ c ∧ c ≤ 'f' then some (c.toNat - 'a'.toNat + 10)
  else if 'A' ≤ c ∧ c ≤ 'F' then some (c.toNat - 'A'.toNat + 10)
  else none

/-- The value of four hexadecimal digits. -/
def hexValue4 (a b c d : Char) : Option Nat := do
  some (4096 * (← hexValue a) + 256 * (← hexValue b) + 16 * (← hexValue c) + (← hexValue d))

/-- The fault where four hexadecimal digits were wanted: the next four bytes are refused. -/
def hexFault (cs : List Char) : Fault :=
  if byteCount cs < 4 then .before .endInString [] else ⟨.invalidEscape, byteCount cs - 4⟩

/-- Read four hexadecimal digits. -/
def readHex4 : Reader Nat
  | a :: b :: c :: d :: rest =>
    match hexValue4 a b c d with
    | some n => .ok (n, rest)
    | none => .error (hexFault (a :: b :: c :: d :: rest))
  | cs => .error (hexFault cs)

theorem readHex4_shorter {cs rest : List Char} {n : Nat} (h : readHex4 cs = .ok (n, rest)) :
    rest.length < cs.length := by
  unfold readHex4 at h
  split at h
  · split at h
    · cases h; simp only [List.length_cons]; omega
    · exact absurd h (by simp)
  · exact absurd h (by simp)

/-- The character of an escape that is one letter long. -/
def shortEscape (c : Char) : Option Char :=
  if c = '"' then some '"'
  else if c = '\\' then some '\\'
  else if c = '/' then some '/'
  else if c = 'b' then some '\x08'
  else if c = 'f' then some '\x0c'
  else if c = 'n' then some '\n'
  else if c = 'r' then some '\r'
  else if c = 't' then some '\t'
  else none

/-- Is `n` the first half of a surrogate pair? -/
def isHighSurrogate (n : Nat) : Bool := 0xD800 ≤ n && n ≤ 0xDBFF

/-- Is `n` the second half of a surrogate pair? -/
def isLowSurrogate (n : Nat) : Bool := 0xDC00 ≤ n && n ≤ 0xDFFF

/-- Read the second half of a surrogate pair, as a whole escape, and combine it with the first
half `high`. -/
def readLowSurrogate (high : Nat) : Reader Char
  | [] => .error (.before .endInString [])
  | c :: cs =>
    if c ≠ '\\' then .error (.after .unexpectedEndOfEscape (c :: cs))
    else match cs with
      | [] => .error (.before .endInString [])
      | u :: ds =>
        if u ≠ 'u' then .error (.after .unexpectedEndOfEscape (u :: ds))
        else match readHex4 ds with
          | .error e => .error e
          | .ok (low, rest) =>
            if isLowSurrogate low then
              .ok (Char.ofNat (0x10000 + (high - 0xD800) * 0x400 + (low - 0xDC00)), rest)
            else .error (.before .loneSurrogate rest)

theorem readLowSurrogate_shorter {high : Nat} {cs rest : List Char} {c : Char}
    (h : readLowSurrogate high cs = .ok (c, rest)) : rest.length < cs.length := by
  unfold readLowSurrogate at h
  split at h
  · exact absurd h (by simp)
  · split at h
    · exact absurd h (by simp)
    · split at h
      · exact absurd h (by simp)
      · split at h
        · exact absurd h (by simp)
        · split at h
          · exact absurd h (by simp)
          · next hx =>
            split at h
            · simp only [Except.ok.injEq, Prod.mk.injEq] at h
              have := readHex4_shorter hx
              simp only [List.length_cons, ← h.2]
              omega
            · exact absurd h (by simp)

/-- Read what follows the backslash of an escape. -/
def readEscape : Reader Char
  | [] => .error (.before .endInString [])
  | e :: cs =>
    if e = 'u' then
      match readHex4 cs with
      | .error f => .error f
      | .ok (n, rest) =>
        if isLowSurrogate n then .error (.before .loneSurrogate rest)
        else if isHighSurrogate n then readLowSurrogate n rest
        else .ok (Char.ofNat n, rest)
    else match shortEscape e with
      | some c => .ok (c, cs)
      | none => .error (.after .invalidEscape (e :: cs))

theorem readEscape_shorter {cs rest : List Char} {c : Char} (h : readEscape cs = .ok (c, rest)) :
    rest.length < cs.length := by
  unfold readEscape at h
  split at h
  · exact absurd h (by simp)
  · split at h
    · split at h
      · exact absurd h (by simp)
      · next hx =>
        have := readHex4_shorter hx
        simp only [List.length_cons]
        split at h
        · exact absurd h (by simp)
        · split at h
          · have := readLowSurrogate_shorter h
            omega
          · cases h; omega
    · split at h
      · cases h; simp
      · exact absurd h (by simp)

/-- What was read, with `c` before it. -/
def headed (c : Char) (p : List Char × List Char) : List Char × List Char := (c :: p.1, p.2)

/-- Read a string after its opening quote. -/
def readString (cs : List Char) : Except Fault (List Char × List Char) :=
  match cs with
  | [] => .error (.before .endInString [])
  | c :: rest =>
    if c = '"' then .ok ([], rest)
    else if c < ' ' then .error (.after .controlCharacter (c :: rest))
    else if c = '\\' then
      match h : readEscape rest with
      | .error e => .error e
      | .ok (d, rest') =>
        have := readEscape_shorter h
        (readString rest').map (headed d)
    else (readString rest).map (headed c)
termination_by cs.length
decreasing_by all_goals simp only [List.length_cons]; omega

/-- The step that `readString` takes, without the bookkeeping of its termination. -/
theorem readString_cons (c : Char) (rest : List Char) :
    readString (c :: rest) =
      if c = '"' then .ok ([], rest)
      else if c < ' ' then .error (.after .controlCharacter (c :: rest))
      else match (if c = '\\' then readEscape rest else .ok (c, rest)) with
        | .error e => .error e
        | .ok (d, rest') => (readString rest').map (headed d) := by
  rw [readString]
  split
  · rfl
  · split
    · rfl
    · split
      · split <;> simp_all
      · rfl

theorem map_headed_eq_ok {c : Char} {r : Except Fault (List Char × List Char)}
    {s rest : List Char} (h : r.map (headed c) = .ok (s, rest)) :
    ∃ t, r = .ok (t, rest) ∧ s = c :: t := by
  cases r with
  | error e => exact absurd h (by simp [Except.map])
  | ok p =>
    simp only [Except.map, headed, Except.ok.injEq, Prod.mk.injEq] at h
    exact ⟨p.1, by rw [← h.2], h.1.symm⟩

theorem readString_shorter {cs rest : List Char} {s : List Char}
    (h : readString cs = .ok (s, rest)) : rest.length < cs.length := by
  induction hn : cs.length using Nat.strongRecOn generalizing cs s with
  | _ n ih =>
    subst hn
    cases cs with
    | nil => simp [readString] at h
    | cons c cs =>
      rw [readString_cons] at h
      split at h
      · cases h; simp
      · split at h
        · exact absurd h (by simp)
        · split at h
          · exact absurd h (by simp)
          · next d rest' hd =>
            have hle : rest'.length ≤ cs.length := by
              split at hd
              · exact Nat.le_of_lt (readEscape_shorter hd)
              · cases hd; exact Nat.le_refl _
            obtain ⟨t, hs, -⟩ := map_headed_eq_ok h
            have := ih rest'.length (by simp only [List.length_cons]; omega) hs rfl
            simp only [List.length_cons]
            omega

/-- Pass over a string whose text nobody wants, after its opening quote.  Any four hexadecimal
digits will do in an escape. -/
def skipString (cs : List Char) : Except Fault (List Char) :=
  match cs with
  | [] => .error (.before .endInString [])
  | c :: rest =>
    if c = '"' then .ok rest
    else if c < ' ' then .error (.before .controlCharacter (c :: rest))
    else if c = '\\' then
      match rest with
      | [] => .error (.before .endInString [])
      | e :: rest' =>
        if e = 'u' then
          match h : readHex4 rest' with
          | .error e => .error e
          | .ok (_, rest'') =>
            have := readHex4_shorter h
            skipString rest''
        else if (shortEscape e).isSome then skipString rest'
        else .error (.after .invalidEscape (e :: rest'))
    else skipString rest
termination_by cs.length
decreasing_by all_goals simp only [List.length_cons]; omega

theorem skipString_shorter {cs rest : List Char} (h : skipString cs = .ok rest) :
    rest.length < cs.length := by
  fun_induction skipString cs with
  | case1 => exact absurd h (by simp)
  | case2 => cases h; simp
  | case3 => exact absurd h (by simp)
  | case4 => exact absurd h (by simp)
  | case5 => exact absurd h (by simp)
  | case6 =>
    rename_i ih
    have := ih h
    simp only [List.length_cons]
    omega
  | case7 =>
    rename_i ih
    have := ih h
    simp only [List.length_cons]
    omega
  | case8 => exact absurd h (by simp)
  | case9 =>
    rename_i ih
    have := ih h
    simp only [List.length_cons]
    omega

end FractalShader.Json
