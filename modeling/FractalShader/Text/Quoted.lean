import FractalShader.Text.Visible

/-!
# Quoted text

Text from outside is shown between double quotes in log lines and in messages,
so that its ends and its invisible characters can be seen.

* `quoteChar_visible` — a visible character other than a quote or a backslash
  stands for itself.
-/

namespace FractalShader

/-- The hexadecimal digits of `n`, lower case, without leading zeros. -/
def hexDigits (n : Nat) : List Char := Nat.toDigits 16 n

/-- How one character stands inside quoted text. -/
def quoteChar (c : Char) : List Char :=
  if c = '\x00' then ['\\', '0']
  else if c = '\t' then ['\\', 't']
  else if c = '\r' then ['\\', 'r']
  else if c = '\n' then ['\\', 'n']
  else if c = '\\' then ['\\', '\\']
  else if c = '"' then ['\\', '"']
  else if isVisible c then [c]
  else ['\\', 'u', '\x7b'] ++ hexDigits c.toNat ++ ['\x7d']

/-- `s` between double quotes, with escapes for quotes, backslashes and what cannot be seen. -/
def quoted (s : String) : String :=
  String.ofList (['"'] ++ s.toList.flatMap quoteChar ++ ['"'])

theorem quoteChar_visible {c : Char} (h : isVisible c = true) (hq : c ≠ '"') (hb : c ≠ '\\') :
    quoteChar c = [c] := by
  have h0 : ∀ d : Char, isVisible d = false → c ≠ d := fun d hd hc => by simp [hc, hd] at h
  simp [quoteChar, h, hq, hb, h0 '\x00' (by decide), h0 '\t' (by decide), h0 '\r' (by decide),
    h0 '\n' (by decide)]

end FractalShader
