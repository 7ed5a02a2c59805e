/-!
# White space

The characters with the Unicode property `White_Space`, which is what may not
surround a preset name.

* `isPadded_eq_false_iff` — a text is padded exactly when trimming changes it.
-/

namespace FractalShader

/-- The characters with the property `White_Space`; the property is closed since Unicode 6.3. -/
def isWhiteSpace (c : Char) : Bool :=
  let n := c.toNat
  (0x09 ≤ n && n ≤ 0x0D) || n == 0x20 || n == 0x85 || n == 0xA0 || n == 0x1680
    || (0x2000 ≤ n && n ≤ 0x200A) || n == 0x2028 || n == 0x2029 || n == 0x202F
    || n == 0x205F || n == 0x3000

/-- A text without the white space around it. -/
def trimmed (cs : List Char) : List Char :=
  ((cs.dropWhile isWhiteSpace).reverse.dropWhile isWhiteSpace).reverse

/-- A text is padded when it starts or ends with white space. -/
def isPadded (cs : List Char) : Bool :=
  cs.head?.any isWhiteSpace || cs.getLast?.any isWhiteSpace

/-- Nothing is dropped from a text exactly when its first character stays. -/
theorem dropWhile_eq_self_iff_head {p : Char → Bool} {cs : List Char} :
    cs.dropWhile p = cs ↔ cs.head?.any p = false := by
  cases cs with
  | nil => simp
  | cons c cs =>
    cases hc : p c with
    | false => simp [hc]
    | true =>
      simp only [List.dropWhile_cons, hc, if_true, List.head?_cons, Option.any_some]
      refine iff_of_false (fun h => ?_) (by simp)
      have := (List.dropWhile_sublist p (l := cs)).length_le
      rw [h, List.length_cons] at this
      omega

theorem isPadded_eq_false_iff {cs : List Char} : isPadded cs = false ↔ trimmed cs = cs := by
  unfold isPadded
  rw [Bool.or_eq_false_iff, ← dropWhile_eq_self_iff_head, List.getLast?_eq_head?_reverse,
    ← dropWhile_eq_self_iff_head]
  constructor
  · rintro ⟨hl, hr⟩
    rw [trimmed, hl, hr, List.reverse_reverse]
  · intro h
    have hlen : cs.length ≤ (cs.dropWhile isWhiteSpace).length := by
      have := (List.dropWhile_sublist isWhiteSpace
        (l := (cs.dropWhile isWhiteSpace).reverse)).length_le
      rw [← List.length_reverse, ← trimmed, h, List.length_reverse] at this
      exact this
    have hl : cs.dropWhile isWhiteSpace = cs :=
      (List.dropWhile_sublist isWhiteSpace).eq_of_length_le hlen
    refine ⟨hl, ?_⟩
    rw [trimmed, hl] at h
    simpa using congrArg List.reverse h

end FractalShader
