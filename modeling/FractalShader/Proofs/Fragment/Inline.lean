import FractalShader.Proofs.Fragment.Lenient
import FractalShader.Proofs.Text.Brackets
import FractalShader.Proofs.Text.Lines

/-!
# Statements and expressions on one line

The catalog's texts hold neither newlines, nor tabs, nor braces, and every
statement that is made of them closes the parentheses that it opens.

* `layoutMarks`, `Inline` — such a text, with the parentheses that are open before it and after it;
* `inline_foldLine`, `inline_returnedText` — the statement of every fold and the
  expression of every distance function.
-/

namespace FractalShader

/-- What ends a line, indents it, or opens and closes a block. -/
def layoutMarks : List Char := ['\n', '\r', '\t', '\x7b', '\x7d']

/-- A text without any of these.  With `n` parentheses open before it, `m` are open after it. -/
structure Inline (n : Nat) (t : String) (m : Nat) : Prop where
  plain : ∀ ch ∈ t.toList, ch ∉ layoutMarks
  nests : Nests '(' ')' n t.toList m

namespace Inline

variable {n m k : Nat} {s t : String}

theorem not_mem (h : Inline n t m) {ch : Char} (hch : ch ∈ layoutMarks) : ch ∉ t.toList :=
  fun hmem => h.plain ch hmem hch

theorem isPlainLine (h : Inline n t m) : IsPlainLine t :=
  ⟨h.not_mem (by decide), h.not_mem (by decide)⟩

theorem no_tab (h : Inline n t m) : '\t' ∉ t.toList := h.not_mem (by decide)

theorem no_opening (h : Inline n t m) : '\x7b' ∉ t.toList := h.not_mem (by decide)

theorem no_closing (h : Inline n t m) : '\x7d' ∉ t.toList := h.not_mem (by decide)

theorem append (hs : Inline n s m) (ht : Inline m t k) : Inline n (s ++ t) k where
  plain := by
    intro ch hch
    rw [String.toList_append, List.mem_append] at hch
    exact hch.elim (hs.plain ch) (ht.plain ch)
  nests := by
    rw [String.toList_append]
    exact hs.nests.append ht.nests

/-- A text that is written out has the marks and parentheses that are written. -/
theorem of_eq (cs : List Char) (h : t = String.ofList cs)
    (hplain : cs.all (fun ch => decide (ch ∉ layoutMarks)) = true)
    (hscan : scan '(' ')' n cs = some m) : Inline n t m := by
  have htext : t.toList = cs := by rw [h, String.toList_ofList]
  constructor
  · rw [htext]
    simpa using hplain
  · rw [htext]
    exact nests_of_scan (by decide) hscan

end Inline

namespace Fragment

/-- An assignment closes its parentheses when its expression does. -/
theorem inline_assignment {expr : String} (h : Inline 0 expr 0) :
    Inline 0 ("new_p = " ++ expr ++ ";") 0 := by
  have hpoint : Inline 0 "new_p = " 0 := .of_eq (_ :: _) rfl (by decide) (by decide)
  have hend : Inline 0 ";" 0 := .of_eq (_ :: _) rfl (by decide) (by decide)
  exact (hpoint.append h).append hend

theorem inline_expr {call : LibraryCall} (hf : Inline 0 call.function 0)
    (ha : Inline 0 call.arguments 0) : Inline 0 call.expr 0 := by
  have hlibrary : Inline 0 "library." 0 := .of_eq (_ :: _) rfl (by decide) (by decide)
  exact (hlibrary.append hf).append ha

/-- The line of every fold closes its parentheses. -/
theorem inline_foldLine (k : FoldKind) : Inline 0 (foldLine k) 0 := by
  cases k with
  | orbitColoring => exact .of_eq (_ :: _) rfl (by decide) (by decide)
  | unknown => exact inline_assignment (.of_eq (_ :: _) rfl (by decide) (by decide))
  | _ =>
    refine inline_assignment (inline_expr ?_ ?_) <;>
      exact .of_eq (_ :: _) rfl (by decide) (by decide)

/-- The distance to a shape stands in two parentheses, its arguments in a third. -/
theorem inline_shapeDistance {function arguments : String} (hf : Inline 2 function 2)
    (ha : Inline 3 arguments 3) : Inline 0 (SdfKind.shapeDistance function arguments) 0 := by
  have hstart : Inline 0 "float2(min(d, library." 2 := .of_eq (_ :: _) rfl (by decide) (by decide)
  have hpoint : Inline 2 "(new_p, " 3 := .of_eq (_ :: _) rfl (by decide) (by decide)
  have hend : Inline 3 ")), length(new_p))" 0 := .of_eq (_ :: _) rfl (by decide) (by decide)
  exact (((hstart.append hf).append hpoint).append ha).append hend

/-- Every returned expression closes its parentheses. -/
theorem inline_returnedText (k : SdfKind) : Inline 0 (returnedText k) 0 := by
  cases k with
  | julia | julia2 | mandelbrot | unknown => exact .of_eq (_ :: _) rfl (by decide) (by decide)
  | _ =>
    refine inline_shapeDistance ?_ ?_ <;> exact .of_eq (_ :: _) rfl (by decide) (by decide)

end Fragment

end FractalShader
