import FractalShader.Json.Scan

/-!
# Writing JSON

Strings are written with the shortest escape of each character that needs one:
quotes, backslashes and controls.  Lists and objects are written either on one
line or with one entry on each line.

* `readString_quoteBody` — reading a written string gives it back, whatever
  follows it.
-/

namespace FractalShader.Json

/-! ## Strings -/

/-- How one character is written in a string. -/
def escapeChar (c : Char) : List Char :=
  if c = '"' then ['\\', '"']
  else if c = '\\' then ['\\', '\\']
  else if c = '\x08' then ['\\', 'b']
  else if c = '\x0c' then ['\\', 'f']
  else if c = '\n' then ['\\', 'n']
  else if c = '\r' then ['\\', 'r']
  else if c = '\t' then ['\\', 't']
  else if c < ' ' then
    ['\\', 'u', '0', '0', Nat.digitChar (c.toNat / 16), Nat.digitChar (c.toNat % 16)]
  else [c]

/-- The characters of `s` as they are written between quotes. -/
def quoteBody (s : List Char) : List Char := s.flatMap escapeChar

/-- `s` as a JSON string. -/
def quote (s : String) : List Char := ['"'] ++ quoteBody s.toList ++ ['"']

/-- One written character is read back. -/
theorem readString_escapeChar (c : Char) (rest : List Char) :
    readString (escapeChar c ++ rest) = (readString rest).map (headed c) := by
  have short : ∀ e d : Char, shortEscape e = some d → e ≠ 'u' →
      readString ('\\' :: e :: rest) = (readString rest).map (headed d) := by
    intro e d hd hu
    rw [readString_cons]
    simp [readEscape, hu, hd]
  unfold escapeChar
  split
  · next h => subst h; exact short '"' '"' (by decide) (by decide)
  split
  · next h => subst h; exact short '\\' '\\' (by decide) (by decide)
  split
  · next h => subst h; exact short 'b' '\x08' (by decide) (by decide)
  split
  · next h => subst h; exact short 'f' '\x0c' (by decide) (by decide)
  split
  · next h => subst h; exact short 'n' '\n' (by decide) (by decide)
  split
  · next h => subst h; exact short 'r' '\r' (by decide) (by decide)
  split
  · next h => subst h; exact short 't' '\t' (by decide) (by decide)
  split
  · next h =>
    have hlt : c.toNat < 32 := h
    have key : ∀ n, n < 32 →
        hexValue4 '0' '0' (Nat.digitChar (n / 16)) (Nat.digitChar (n % 16)) = some n := by decide
    have hlow : isLowSurrogate c.toNat = false := by simp [isLowSurrogate]; omega
    have hhigh : isHighSurrogate c.toNat = false := by simp [isHighSurrogate]; omega
    rw [List.cons_append, readString_cons]
    simp [readEscape, readHex4, key c.toNat hlt, hlow, hhigh]
  · next hq hb _ _ _ _ _ hc => simp [readString_cons, hq, hb, hc]

/-- Reading a written string gives it back, whatever follows it. -/
theorem readString_quoteBody (s rest : List Char) :
    readString (quoteBody s ++ '"' :: rest) = .ok (s, rest) := by
  induction s with
  | nil => simp [quoteBody, readString_cons]
  | cons c s ih =>
    have hstep : quoteBody (c :: s) ++ '"' :: rest
        = escapeChar c ++ (quoteBody s ++ '"' :: rest) := by simp [quoteBody]
    rw [hstep, readString_escapeChar, ih]
    rfl

/-! ## Objects -/

/-- A member of an object that is written on one line. -/
def member (key : String) (value : List Char) : List Char := quote key ++ [':'] ++ value

/-- An object on one line. -/
def compactObject (members : List (List Char)) : List Char :=
  ['\x7b'] ++ [','].intercalate members ++ ['\x7d']

/-- The start of a line under `depth` open brackets. -/
def newLine (depth : Nat) : List Char := '\n' :: List.replicate (2 * depth) ' '

/-- Entries on lines of their own between brackets; nothing at all between the brackets where
there are none.  `depth` brackets are open around them. -/
def spread (opening closing : Char) (depth : Nat) (entries : List (List Char)) : List Char :=
  if entries = [] then [opening, closing]
  else [opening] ++ [','].intercalate (entries.map fun e => newLine (depth + 1) ++ e)
    ++ newLine depth ++ [closing]

/-- A member of an object whose members stand on lines of their own. -/
def spreadMember (key : String) (value : List Char) : List Char :=
  quote key ++ [':', ' '] ++ value

end FractalShader.Json
