/-!
# Patterns

A filter can ask for lines on which a field has a value that fits a pattern.
Here a pattern is a tree; what matters of it is whether it can be used:

* it is not nested too deep (`Pattern.height`);
* it asks for nothing that needs tables of Unicode, which are not there: neither
  that letter case is ignored nor a shorthand such as `\d`, unless Unicode is
  turned off;
* where Unicode is turned off, it fits nothing but whole characters.

Flags turn Unicode off and letter case away, from where they stand to the end of
their group.

* `Pattern.flagsAfter_group` — what a group does to the flags ends with it;
* `CharSet.usable_off_ascii` — a class that can be used where Unicode is turned off does not
  except characters.
-/

namespace FractalShader.Log

/-! ## Trees -/

/-- A character of a pattern. -/
structure Literal where
  char : Char
  /-- Is it given by two hexadecimal digits, so that it is a byte where Unicode is turned off? -/
  isByte : Bool

/-- A set of characters between brackets. -/
inductive CharSet where
  | empty
  | literal (l : Literal)
  | range (first last : Literal)
  /-- A class of ASCII characters by its name, or all characters but those. -/
  | named (negated : Bool)
  /-- Digits, white space or word characters, or all characters but those. -/
  | shorthand (negated : Bool)
  /-- What other brackets hold, or all characters but those. -/
  | bracketed (negated : Bool) (s : CharSet)
  | union (s : List CharSet)
  /-- An intersection or a difference. -/
  | operation (left right : CharSet)

/-- What flags say: on, off or nothing. -/
structure FlagChange where
  ignoreCase : Option Bool
  unicode : Option Bool
  /-- White space and comments between the parts of a pattern. -/
  spaced : Option Bool

/-- No flags. -/
def FlagChange.none : FlagChange := ⟨.none, .none, .none⟩

/-- A pattern. -/
inductive Pattern where
  | empty
  | literal (l : Literal)
  /-- Any character. -/
  | any
  /-- The start or the end of the text or of a line. -/
  | anchor
  /-- The start or the end of a word, or neither. -/
  | boundary
  /-- Digits, white space or word characters, or all characters but those. -/
  | shorthand (negated : Bool)
  /-- Characters of a set, or all others. -/
  | brackets (negated : Bool) (s : CharSet)
  /-- Flags for what follows. -/
  | flags (change : FlagChange)
  | repetition (p : Pattern)
  | group (change : FlagChange) (p : Pattern)
  | sequence (ps : List Pattern)
  | choice (ps : List Pattern)

/-! ## Depth -/

mutual

/-- How deep a set is nested. -/
def CharSet.height : CharSet → Nat
  | .bracketed _ s => s.height + 1
  | .union s => CharSet.greatestHeight s + 1
  | .operation left right => max left.height right.height + 1
  | _ => 0

def CharSet.greatestHeight : List CharSet → Nat
  | [] => 0
  | s :: rest => max s.height (CharSet.greatestHeight rest)

end

mutual

/-- How deep a pattern is nested. -/
def Pattern.height : Pattern → Nat
  | .brackets _ s => s.height + 1
  | .repetition p => p.height + 1
  | .group _ p => p.height + 1
  | .sequence ps => Pattern.greatestHeight ps + 1
  | .choice ps => Pattern.greatestHeight ps + 1
  | _ => 0

def Pattern.greatestHeight : List Pattern → Nat
  | [] => 0
  | p :: rest => max p.height (Pattern.greatestHeight rest)

end

/-! ## Use -/

/-- The flags that matter for use. -/
structure Flags where
  ignoreCase : Bool
  unicode : Bool

/-- The flags at the start of a pattern. -/
def Flags.initial : Flags := ⟨false, true⟩

/-- The flags after a change. -/
def Flags.change (f : Flags) (c : FlagChange) : Flags :=
  ⟨c.ignoreCase.getD f.ignoreCase, c.unicode.getD f.unicode⟩

/-- Is this an ASCII character? -/
def Literal.isAscii (l : Literal) : Bool := l.char.toNat ≤ 0x7F

mutual

/-- Can the set be used under these flags?  With Unicode, letter case has no table, so that no
member can be given where it is ignored; without, a set holds ASCII characters only. -/
def CharSet.usable (f : Flags) : CharSet → Bool
  | .empty => true
  | .literal l => if f.unicode then !f.ignoreCase else l.isAscii
  | .range first last => if f.unicode then !f.ignoreCase else first.isAscii && last.isAscii
  | .named negated => if f.unicode then !f.ignoreCase else !negated
  | .shorthand negated => !f.unicode && !negated
  | .bracketed negated s => (f.unicode || !negated) && s.usable f
  | .union s => CharSet.allUsable f s
  | .operation left right => left.usable f && right.usable f

def CharSet.allUsable (f : Flags) : List CharSet → Bool
  | [] => true
  | s :: rest => s.usable f && CharSet.allUsable f rest

end

mutual

/-- The flags after a pattern that can be used under the flags `f`. -/
def Pattern.flagsAfter (f : Flags) : Pattern → Option Flags
  | .empty => some f
  | .literal l =>
    if if f.unicode then !f.ignoreCase else !l.isByte || l.isAscii then some f else none
  | .any => if f.unicode then some f else none
  | .anchor => some f
  | .boundary => if f.unicode then none else some f
  | .shorthand negated => if f.unicode || negated then none else some f
  | .brackets negated s => if (f.unicode || !negated) && s.usable f then some f else none
  | .flags change => some (f.change change)
  | .repetition p => p.flagsAfter f
  | .group change p => (p.flagsAfter (f.change change)).map fun _ => f
  | .sequence ps => Pattern.flagsAfterAll f ps
  | .choice ps => Pattern.flagsAfterAll f ps

/-- The flags after several patterns; those of one alternative count for the next ones too. -/
def Pattern.flagsAfterAll (f : Flags) : List Pattern → Option Flags
  | [] => some f
  | p :: rest =>
    match p.flagsAfter f with
    | none => none
    | some f => Pattern.flagsAfterAll f rest

end

/-- How deep a pattern may be nested. -/
def heightLimit : Nat := 250

/-- Can the pattern be used? -/
def Pattern.usable (p : Pattern) : Bool :=
  p.height ≤ heightLimit && (p.flagsAfter .initial).isSome

theorem Pattern.flagsAfter_group {f f' : Flags} {change : FlagChange} {p : Pattern}
    (h : (Pattern.group change p).flagsAfter f = some f') : f' = f := by
  simp only [Pattern.flagsAfter, Option.map_eq_some_iff] at h
  obtain ⟨_, _, rfl⟩ := h
  rfl

theorem CharSet.usable_off_ascii {f : Flags} (hf : f.unicode = false) {negated : Bool}
    {s : CharSet} (h : (CharSet.bracketed negated s).usable f = true) : negated = false := by
  simp only [CharSet.usable, hf, Bool.false_or, Bool.and_eq_true, Bool.not_eq_true'] at h
  exact h.1

end FractalShader.Log
