import FractalShader.Text.Fields
import FractalShader.Text.WhiteSpace
import Mathlib.Data.List.TakeWhile

/-!
# Lines of a text

A line is ended by a newline, which a carriage return may precede.  What follows
the last newline is a line as well, unless it is empty.

* `IsPlainLine` — a text that can stand on one line;
* `fields_ended`, `lines_of_ended` — a text that was put together from
  plain lines is cut into these again;
* `trimmed_eq_nil_iff` — the lines that are blank.
-/

namespace FractalShader

/-- A line without the carriage return before its newline. -/
def dropReturn (cs : List Char) : List Char :=
  if cs.getLast? = some '\r' then cs.dropLast else cs

/-- The lines of a text, without what ends them. -/
def lines (text : String) : List String :=
  let fs := fields '\n' text.toList
  let rest := fs.getLast?.toList.filter (· ≠ [])
  (fs.dropLast.map dropReturn ++ rest).map String.ofList

/-- The text of these lines, each ended by a newline. -/
def ended (ls : List String) : List Char := ls.flatMap fun l => l.toList ++ ['\n']

/-! ## Plain lines -/

/-- A text that holds neither a newline nor a carriage return. -/
structure IsPlainLine (l : String) : Prop where
  no_newline : '\n' ∉ l.toList
  no_return : '\r' ∉ l.toList

/-- A text that is written out has the characters that are written. -/
theorem isPlainLine_of_eq {l : String} (cs : List Char) (h : l = String.ofList cs)
    (hn : '\n' ∉ cs) (hr : '\r' ∉ cs) : IsPlainLine l := by
  constructor
  · rwa [h, String.toList_ofList]
  · rwa [h, String.toList_ofList]

theorem IsPlainLine.append {a b : String} (ha : IsPlainLine a) (hb : IsPlainLine b) :
    IsPlainLine (a ++ b) := by
  constructor
  · rw [String.toList_append, List.mem_append]
    exact not_or.mpr ⟨ha.no_newline, hb.no_newline⟩
  · rw [String.toList_append, List.mem_append]
    exact not_or.mpr ⟨ha.no_return, hb.no_return⟩

/-- Lines are cut off at their newlines, and nothing is left. -/
theorem fields_ended {ls : List String} (h : ∀ l ∈ ls, '\n' ∉ l.toList) :
    fields '\n' (ended ls) = ls.map String.toList ++ [[]] := by
  induction ls with
  | nil => rfl
  | cons l ls ih =>
    have hrest := ih fun l' hl' => h l' (List.mem_cons_of_mem l hl')
    have hl := h l List.mem_cons_self
    simp only [ended, List.flatMap_cons, List.append_assoc, List.singleton_append]
    rw [fields_append hl, ← ended, hrest]
    rfl

theorem dropReturn_of_not_mem {cs : List Char} (h : '\r' ∉ cs) : dropReturn cs = cs := by
  rw [dropReturn, if_neg]
  intro hlast
  exact h (List.mem_of_getLast? hlast)

/-- A text of plain lines has these lines. -/
theorem lines_of_ended {text : String} {ls : List String} (htext : text.toList = ended ls)
    (h : ∀ l ∈ ls, IsPlainLine l) : lines text = ls := by
  have hreturn : (ls.map String.toList).map dropReturn = ls.map String.toList := by
    rw [List.map_map]
    refine List.map_congr_left fun l hl => ?_
    exact dropReturn_of_not_mem (h l hl).no_return
  simp only [lines, htext, fields_ended fun l hl => (h l hl).no_newline, List.dropLast_concat,
    List.getLast?_concat, hreturn]
  simp

/-! ## Blank lines -/

/-- Only white space is trimmed away wholly. -/
theorem trimmed_eq_nil_iff {cs : List Char} : trimmed cs = [] ↔ ∀ c ∈ cs, isWhiteSpace c = true := by
  rw [trimmed, List.reverse_eq_nil_iff, List.dropWhile_eq_nil_iff]
  simp only [List.mem_reverse]
  constructor
  · intro h c hc
    rw [← List.takeWhile_append_dropWhile (p := isWhiteSpace) (l := cs)] at hc
    rcases List.mem_append.mp hc with hc | hc
    · exact List.mem_takeWhile_imp hc
    · exact h c hc
  · intro h c hc
    exact h c ((List.dropWhile_sublist isWhiteSpace).subset hc)

end FractalShader
