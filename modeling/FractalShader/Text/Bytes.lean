/-!
# Bytes of a text

Positions in a text are counted in the bytes of its UTF-8 form, while the text
itself stays a list of characters.

* `byteCount_append` — the bytes of two texts in a row add up;
* `takeBytes_append`, `dropBytes_append` — cutting a text at the end of its
  first part gives the two parts back.
-/

namespace FractalShader

/-- The number of bytes of `cs` in UTF-8. -/
def byteCount : List Char → Nat
  | [] => 0
  | c :: cs => c.utf8Size + byteCount cs

theorem byteCount_append (cs ds : List Char) :
    byteCount (cs ++ ds) = byteCount cs + byteCount ds := by
  induction cs with
  | nil => simp [byteCount]
  | cons c cs ih => simp [byteCount, ih, Nat.add_assoc]

/-- The characters that start within the first `n` bytes. -/
def takeBytes (n : Nat) : List Char → List Char
  | [] => []
  | c :: cs => if n = 0 then [] else c :: takeBytes (n - c.utf8Size) cs

/-- The characters after those. -/
def dropBytes (n : Nat) : List Char → List Char
  | [] => []
  | c :: cs => if n = 0 then c :: cs else dropBytes (n - c.utf8Size) cs

theorem takeBytes_append (cs ds : List Char) : takeBytes (byteCount cs) (cs ++ ds) = cs := by
  induction cs with
  | nil => cases ds <;> rfl
  | cons c cs ih =>
    have := c.utf8Size_pos
    rw [List.cons_append, takeBytes, byteCount, if_neg (by omega), Nat.add_sub_cancel_left, ih]

theorem dropBytes_append (cs ds : List Char) : dropBytes (byteCount cs) (cs ++ ds) = ds := by
  induction cs with
  | nil => cases ds <;> rfl
  | cons c cs ih =>
    have := c.utf8Size_pos
    rw [List.cons_append, dropBytes, byteCount, if_neg (by omega), Nat.add_sub_cancel_left, ih]

end FractalShader
