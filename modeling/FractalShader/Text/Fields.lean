/-!
# Fields of a text

A text is cut at every occurrence of a separator.  There is always at least one
field; fields may be empty.

* `separator_not_mem` — no field holds the separator;
* `fields_append` — cutting takes off one field at a time.
-/

namespace FractalShader

/-- The texts between the occurrences of `sep` in `cs`, empty ones included. -/
def fields (sep : Char) : List Char → List (List Char)
  | [] => [[]]
  | c :: cs =>
    if c = sep then [] :: fields sep cs
    else match fields sep cs with
      | [] => [[c]]
      | f :: fs => (c :: f) :: fs

theorem separator_not_mem {sep : Char} {cs : List Char} : ∀ f ∈ fields sep cs, sep ∉ f := by
  induction cs with
  | nil => simp [fields]
  | cons c cs ih =>
    intro f hf
    simp only [fields] at hf
    split at hf
    · grind
    · split at hf <;> grind

/-- A text without the separator is a single field. -/
theorem fields_of_not_mem {sep : Char} {f : List Char} (h : sep ∉ f) : fields sep f = [f] := by
  induction f with
  | nil => rfl
  | cons c cs ih =>
    simp only [List.mem_cons, not_or] at h
    rw [fields, if_neg (Ne.symm h.1), ih h.2]

theorem fields_append {sep : Char} {f : List Char} (h : sep ∉ f) (rest : List Char) :
    fields sep (f ++ sep :: rest) = f :: fields sep rest := by
  induction f with
  | nil => simp [fields]
  | cons c cs ih =>
    simp only [List.mem_cons, not_or] at h
    rw [List.cons_append, fields, if_neg (Ne.symm h.1), ih h.2]

end FractalShader
