/-!
# Laid out code

Generated code is a list of items: plain lines, blank lines, and lines that open
or close a block.  Laying it out writes each line under as many tabs as there
are open blocks.

* `depth_append`, `layout_append` — code can be laid out piece by piece, the
  second part starting at the depth where the first one ends.
-/

namespace FractalShader

/-- One item of generated code. -/
inductive CodeItem where
  | line (text : String)
  | blank
  /-- A line after which a block is open. -/
  | opening (text : String)
  /-- A line before which a block is closed. -/
  | closing (text : String)
  deriving DecidableEq

/-- Generated code, in order. -/
abbrev Code := List CodeItem

namespace Code

/-- `text` on a line of its own under `depth` tabs. -/
def indented (depth : Nat) (text : String) : List Char :=
  List.replicate depth '\t' ++ text.toList ++ ['\n']

/-- The number of blocks that are open after an item that stands at `depth`. -/
def depthAfter (depth : Nat) : CodeItem → Nat
  | .line _ => depth
  | .blank => depth
  | .opening _ => depth + 1
  | .closing _ => depth - 1

/-- The text of one item. -/
def itemText (depth : Nat) : CodeItem → List Char
  | .line text => indented depth text
  | .blank => ['\n']
  | .opening text => indented depth text
  | .closing text => indented (depth - 1) text

/-- The number of blocks that are open after `code`, when `depth` were open before. -/
def depth : Nat → Code → Nat
  | n, [] => n
  | n, item :: rest => depth (depthAfter n item) rest

/-- The text of `code` when `depth` blocks are open before it. -/
def layout : Nat → Code → List Char
  | _, [] => []
  | n, item :: rest => itemText n item ++ layout (depthAfter n item) rest

theorem depth_append (n : Nat) (a b : Code) : depth n (a ++ b) = depth (depth n a) b := by
  induction a generalizing n with
  | nil => rfl
  | cons item rest ih => exact ih _

theorem layout_append (n : Nat) (a b : Code) :
    layout n (a ++ b) = layout n a ++ layout (depth n a) b := by
  induction a generalizing n with
  | nil => rfl
  | cons item rest ih => simp [layout, depth, ih]

/-- The text of a whole piece of code. -/
def text (code : Code) : String := String.ofList (layout 0 code)

end Code

end FractalShader
