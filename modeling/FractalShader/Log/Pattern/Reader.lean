import FractalShader.Log.Pattern
import FractalShader.Text.Alphanumeric
import FractalShader.Text.WhiteSpace

/-!
# Reading patterns

The text of a pattern is read from left to right.  What has been opened and not
yet closed is kept on a stack, one for groups and inside of brackets one for
brackets.  Where a flag says so, white space and comments may stand between the
parts.

A brace outside of brackets would start a count, which a closing brace ends.
The pattern stands between braces itself and so holds no closing one; hence a
brace there is always refused, as are the escapes that need braces.

* `parse_of_isAlphanum` — letters and digits stand for themselves;
* `isPattern_of_isAlphanum` — so they make a pattern that can be used.
-/

namespace FractalShader.Log.Pattern

/-! ## White space and comments -/

/-- Drop a comment up to the end of its line, and then white space and comments. -/
def skipSpaced (inComment : Bool) : List Char → List Char
  | [] => []
  | c :: cs =>
    if inComment then skipSpaced (c ≠ '\n') cs
    else if isWhiteSpace c then skipSpaced false cs
    else if c = '#' then skipSpaced true cs
    else c :: cs

/-- Drop what may stand between parts. -/
def skip (spaced : Bool) (cs : List Char) : List Char := if spaced then skipSpaced false cs else cs

/-- The character that comes after the next one is taken, when white space and one number sign
are passed over. -/
def peek? (spaced : Bool) (cs : List Char) : Option Char :=
  if spaced then
    let after := match cs.dropWhile isWhiteSpace with
      | '#' :: rest => rest.dropWhile isWhiteSpace
      | rest => rest
    after.head?.or cs.head?
  else cs.head?

/-! ## Escapes -/

/-- What stands for one character or for a place: all that an escape can be. -/
inductive Atom where
  | literal (l : Literal)
  | anchor
  | boundary
  | shorthand (negated : Bool)

/-- The value of a hexadecimal digit. -/
def hexDigit? (c : Char) : Option Nat :=
  if c.isDigit then some (c.toNat - '0'.toNat)
  else if 'a' ≤ c ∧ c ≤ 'f' then some (c.toNat - 'a'.toNat + 10)
  else if 'A' ≤ c ∧ c ≤ 'F' then some (c.toNat - 'A'.toNat + 10)
  else none

/-- Read `digits` hexadecimal digits after the number `n`. -/
def readHex (spaced : Bool) (n : Nat) : Nat → List Char → Option (Nat × List Char)
  | 0, cs => some (n, cs)
  | digits + 1, cs =>
    match skip spaced cs with
    | [] => none
    | c :: rest =>
      match hexDigit? c with
      | none => none
      | some d => readHex spaced (16 * n + d) digits rest

/-- Read a character that is given by its number. -/
def readNumbered (spaced : Bool) (digits : Nat) (isByte : Bool) (cs : List Char) :
    Option (Atom × List Char) :=
  match readHex spaced 0 digits cs with
  | none => none
  | some (n, rest) =>
    if n.isValidChar then some (.literal ⟨Char.ofNat n, isByte⟩, rest) else none

/-- The control character that a letter stands for after a backslash. -/
def control? (c : Char) : Option Char :=
  match c with
  | 'a' => some '\x07'
  | 'f' => some '\x0c'
  | 't' => some '\t'
  | 'n' => some '\n'
  | 'r' => some '\r'
  | 'v' => some '\x0b'
  | _ => none

/-- Read an escape after its backslash.  A mark stands for itself; a letter or a digit needs a
meaning, and classes by the name of a property have none. -/
def readEscape (spaced : Bool) : List Char → Option (Atom × List Char)
  | [] => none
  | c :: rest =>
    if c = 'x' then readNumbered spaced 2 true rest
    else if c = 'u' then readNumbered spaced 4 false rest
    else if c = 'U' then readNumbered spaced 8 false rest
    else if c = 'd' ∨ c = 's' ∨ c = 'w' then some (.shorthand false, rest)
    else if c = 'D' ∨ c = 'S' ∨ c = 'W' then some (.shorthand true, rest)
    else if c = 'A' ∨ c = 'z' then some (.anchor, rest)
    else if c = 'b' ∨ c = 'B' ∨ c = '<' ∨ c = '>' then some (.boundary, rest)
    else match control? c with
      | some control => some (.literal ⟨control, false⟩, rest)
      | none =>
        if c.toNat ≤ 0x7F ∧ !c.isAlphanum then some (.literal ⟨c, false⟩, rest) else none

/-! ## Brackets -/

/-- Brackets that are not closed yet. -/
structure OpenSet where
  negated : Bool
  /-- What stands before an operation. -/
  left : Option CharSet
  /-- What has been read since, the last first. -/
  items : List CharSet
  /-- Nothing but hyphens has been read, which stand for themselves. -/
  fresh : Bool

namespace OpenSet

/-- Read what belongs to an opening bracket. -/
def start (spaced : Bool) (cs : List Char) : OpenSet × List Char :=
  match skip spaced cs with
  | '^' :: rest => (⟨true, none, [], true⟩, rest)
  | rest => (⟨false, none, [], true⟩, rest)

/-- The set so far. -/
def whole (o : OpenSet) : CharSet :=
  let read := match o.items with
    | [] => .empty
    | [item] => item
    | items => .union items.reverse
  match o.left with
  | none => read
  | some left => .operation left read

/-- One more item. -/
def push (o : OpenSet) (item : CharSet) : OpenSet := { o with items := item :: o.items }

/-- An operation on the set so far. -/
def operate (o : OpenSet) : OpenSet := { o with left := some o.whole, items := [], fresh := false }

end OpenSet

/-- The names of classes of ASCII characters. -/
def classNames : List String :=
  ["alnum", "alpha", "ascii", "blank", "cntrl", "digit", "graph", "lower", "print", "punct",
    "space", "upper", "word", "xdigit"]

/-- Read a class by its name after the opening bracket, if there is one. -/
def readNamed? (cs : List Char) : Option (CharSet × List Char) :=
  match cs with
  | ':' :: rest =>
    let (negated, rest) := match rest with
      | '^' :: rest => (true, rest)
      | rest => (false, rest)
    let name := rest.takeWhile (· ≠ ':')
    match rest.drop name.length with
    | ':' :: ']' :: rest =>
      if classNames.contains (String.ofList name) then some (.named negated, rest) else none
    | _ => none
  | _ => none

/-- Read one character or escape between brackets. -/
def readMember (spaced : Bool) : List Char → Option (Atom × List Char)
  | [] => none
  | c :: rest => if c = '\\' then readEscape spaced rest else some (.literal ⟨c, false⟩, rest)

/-- An atom as a member of a set; places are none. -/
def Atom.set? : Atom → Option CharSet
  | .literal l => some (.literal l)
  | .shorthand negated => some (.shorthand negated)
  | _ => none

/-- Read a range or a single member. -/
def readRange (spaced : Bool) (cs : List Char) : Option (CharSet × List Char) :=
  match readMember spaced cs with
  | none => none
  | some (atom, rest) =>
    match skip spaced rest with
    | '-' :: after =>
      if peek? spaced after = some ']' ∨ peek? spaced after = some '-' then
        atom.set?.map (·, '-' :: after)
      else
        match atom, readMember spaced (skip spaced after) with
        | .literal first, some (.literal last, rest) =>
          if first.char ≤ last.char then some (.range first last, rest) else none
        | _, _ => none
    | rest => atom.set?.map (·, rest)

/-- Read up to the bracket that closes the outermost of the open ones. -/
def readBrackets (spaced : Bool) : Nat → OpenSet → List OpenSet → List Char →
    Option (Pattern × List Char)
  | 0, _, _, _ => none
  | fuel + 1, top, outer, cs =>
    match skip spaced cs with
    | [] => none
    | c :: rest =>
      if top.fresh ∧ c = '-' then
        readBrackets spaced fuel (top.push (.literal ⟨c, false⟩)) outer rest
      else if top.fresh ∧ c = ']' ∧ top.items.isEmpty then
        readBrackets spaced fuel { top.push (.literal ⟨c, false⟩) with fresh := false } outer rest
      else if c = '[' then
        let top := { top with fresh := false }
        match readNamed? rest with
        | some (set, rest) => readBrackets spaced fuel (top.push set) outer rest
        | none =>
          let (inner, rest) := OpenSet.start spaced rest
          readBrackets spaced fuel inner (top :: outer) rest
      else if c = ']' then
        match outer with
        | [] => some (.brackets top.negated top.whole, rest)
        | next :: outer =>
          readBrackets spaced fuel (next.push (.bracketed top.negated top.whole)) outer rest
      else if (c = '&' ∨ c = '-' ∨ c = '~') ∧ rest.head? = some c then
        readBrackets spaced fuel top.operate outer rest.tail
      else
        match readRange spaced (c :: rest) with
        | none => none
        | some (set, rest) =>
          readBrackets spaced fuel { top.push set with fresh := false } outer rest

/-! ## Groups -/

/-- The letters of flags. -/
def flagLetters : List Char := ['i', 'm', 's', 'U', 'u', 'R', 'x']

/-- What is said of one flag: those after a hyphen are turned off. -/
def flagOf (letters : List Char) (c : Char) : Option Bool :=
  if (letters.takeWhile (· ≠ '-')).contains c then some true
  else if letters.contains c then some false
  else none

/-- Read flags; each may be given once, and one follows the hyphen. -/
def FlagChange.parse (letters : List Char) : Option FlagChange :=
  if letters.all (fun c => c = '-' || flagLetters.contains c) ∧ letters.Nodup
      ∧ letters.getLast? ≠ some '-' then
    some ⟨flagOf letters 'i', flagOf letters 'u', flagOf letters 'x'⟩
  else none

/-- Can this be the name of a group? -/
def isGroupName : List Char → Bool
  | [] => false
  | c :: cs =>
    (c = '_' || isAlphabetic c)
      && cs.all fun c => c = '_' || c = '.' || c = '[' || c = ']' || isAlphanumeric c

/-- A group that is not closed yet, with what was read before it. -/
structure OpenGroup where
  items : List Pattern
  alternatives : List Pattern
  change : FlagChange
  /-- May white space and comments stand between the parts outside of it? -/
  spaced : Bool

/-- How far a pattern has been read. -/
structure Reading where
  /-- The parts of the alternative that is being read, the last first. -/
  items : List Pattern
  /-- The alternatives before it, the last first. -/
  alternatives : List Pattern
  /-- The open groups, the innermost first. -/
  outer : List OpenGroup
  /-- The names of groups so far. -/
  names : List (List Char)
  spaced : Bool

namespace Reading

/-- Nothing has been read. -/
def start : Reading := ⟨[], [], [], [], false⟩

/-- Parts that follow one another, the last first, as one pattern. -/
def joined : List Pattern → Pattern
  | [] => .empty
  | [p] => p
  | ps => .sequence ps.reverse

/-- What has been read since the innermost open group was opened. -/
def whole (r : Reading) : Pattern :=
  match r.alternatives with
  | [] => joined r.items
  | alternatives => .choice (joined r.items :: alternatives).reverse

/-- One more part. -/
def push (r : Reading) (p : Pattern) : Reading := { r with items := p :: r.items }

/-- Open a group. -/
def enter (r : Reading) (change : FlagChange) : Reading :=
  ⟨[], [], ⟨r.items, r.alternatives, change, r.spaced⟩ :: r.outer, r.names,
    change.spaced.getD r.spaced⟩

/-- Close a group. -/
def leave (r : Reading) : Option Reading :=
  match r.outer with
  | [] => none
  | g :: outer =>
    some ⟨.group g.change r.whole :: g.items, g.alternatives, outer, r.names, g.spaced⟩

/-- Repeat the last part; flags are nothing that could be repeated. -/
def again (r : Reading) : Option Reading :=
  match r.items with
  | [] => none
  | .flags _ :: _ => none
  | p :: ps => some { r with items := .repetition p :: ps }

/-- Open a group with a name. -/
def enterNamed (r : Reading) (cs : List Char) : Option (Reading × List Char) :=
  let name := cs.takeWhile (· ≠ '>')
  match cs.drop name.length with
  | [] => none
  | _ :: rest =>
    if isGroupName name ∧ !r.names.contains name then
      some ({ r.enter .none with names := name :: r.names }, rest)
    else none

/-- Read what belongs to an opening parenthesis. -/
def readGroup (r : Reading) (cs : List Char) : Option (Reading × List Char) :=
  match skip r.spaced cs with
  | '?' :: 'P' :: '<' :: rest => r.enterNamed rest
  | '?' :: '<' :: rest => r.enterNamed rest
  | '?' :: rest =>
    let letters := rest.takeWhile fun c => c ≠ ':' && c ≠ ')'
    match FlagChange.parse letters, rest.drop letters.length with
    | some change, ':' :: rest => some (r.enter change, rest)
    | some change, ')' :: rest =>
      if letters.isEmpty then none
      else some ({ r.push (.flags change) with spaced := change.spaced.getD r.spaced }, rest)
    | _, _ => none
  | rest => some (r.enter .none, rest)

/-- An atom as a pattern. -/
def ofAtom : Atom → Pattern
  | .literal l => .literal l
  | .anchor => .anchor
  | .boundary => .boundary
  | .shorthand negated => .shorthand negated

/-- Read the part that starts with `c`. -/
def step (r : Reading) (c : Char) (rest : List Char) : Option (Reading × List Char) :=
  match c with
  | '(' => r.readGroup rest
  | ')' => r.leave.map (·, rest)
  | '|' => some ({ r with items := [], alternatives := joined r.items :: r.alternatives }, rest)
  | '[' =>
    let (top, cs) := OpenSet.start r.spaced rest
    (readBrackets r.spaced (cs.length + 1) top [] cs).map fun (p, rest) => (r.push p, rest)
  | '\x7b' => none
  | '\\' => (readEscape r.spaced rest).map fun (atom, rest) => (r.push (ofAtom atom), rest)
  | '.' => some (r.push .any, rest)
  | _ =>
    if c = '?' ∨ c = '*' ∨ c = '+' then
      r.again.map (·, match rest with
        | '?' :: rest => rest
        | rest => rest)
    else if c = '^' ∨ c = '$' then some (r.push .anchor, rest)
    else some (r.push (.literal ⟨c, false⟩), rest)

/-- Read to the end of the text; every step takes at least one character. -/
def run : Nat → Reading → List Char → Option Pattern
  | 0, _, _ => none
  | fuel + 1, r, cs =>
    match skip r.spaced cs with
    | [] => if r.outer.isEmpty then some r.whole else none
    | c :: rest =>
      match r.step c rest with
      | none => none
      | some (r, rest) => run fuel r rest

end Reading

/-- Read a pattern. -/
def parse (cs : List Char) : Option Pattern := Reading.run (cs.length + 1) .start cs

/-! ## Letters and digits -/

/-- A letter or a digit outside of brackets stands for itself. -/
theorem Reading.step_of_isAlphanum {c : Char} (h : c.isAlphanum = true) (r : Reading)
    (rest : List Char) : r.step c rest = some (r.push (.literal ⟨c, false⟩), rest) := by
  have hne : ∀ d : Char, d.isAlphanum = false → c ≠ d := fun d hd hc => by simp [hc, hd] at h
  unfold Reading.step
  split
  case h_8 =>
    rw [if_neg (by simp [hne '?' (by decide), hne '*' (by decide), hne '+' (by decide)]),
      if_neg (by simp [hne '^' (by decide), hne '$' (by decide)])]
  all_goals exact absurd rfl (hne _ (by decide))

/-- A character that stands for itself. -/
def itself (c : Char) : Pattern := .literal ⟨c, false⟩

theorem Reading.run_of_isAlphanum {cs : List Char} (h : cs.all Char.isAlphanum = true)
    {fuel : Nat} (hf : cs.length < fuel) (items : List Pattern) :
    Reading.run fuel ⟨items, [], [], [], false⟩ cs
      = some (joined ((cs.map itself).reverse ++ items)) := by
  induction cs generalizing fuel items with
  | nil =>
    obtain ⟨n, rfl⟩ := Nat.exists_eq_add_of_lt hf
    rfl
  | cons c cs ih =>
    simp only [List.all_cons, Bool.and_eq_true] at h
    obtain ⟨n, rfl⟩ := Nat.exists_eq_add_of_lt hf
    have hn : cs.length < (c :: cs).length + n := by
      rw [List.length_cons]
      omega
    have := ih h.2 hn (itself c :: items)
    rw [List.map_cons, List.reverse_cons, List.append_assoc]
    rw [Reading.run]
    simp only [skip, Bool.false_eq_true, if_false, Reading.step_of_isAlphanum h.1]
    exact this

theorem parse_of_isAlphanum {cs : List Char} (h : cs.all Char.isAlphanum = true) :
    parse cs = some (Reading.joined (cs.map itself).reverse) := by
  rw [parse, Reading.start, Reading.run_of_isAlphanum h (Nat.lt_succ_self _), List.append_nil]

end FractalShader.Log.Pattern

namespace FractalShader.Log

/-- Is a text a pattern that can be used? -/
def isPattern (cs : List Char) : Bool := (Pattern.parse cs).any Pattern.usable

/-- Characters that stand for themselves need no tables and are not nested. -/
theorem Pattern.usable_joined_itself (cs : List Char) :
    (Pattern.Reading.joined (cs.map Pattern.itself)).usable = true := by
  have flat : ∀ cs : List Char, Pattern.greatestHeight (cs.map Pattern.itself) = 0 := by
    intro cs
    induction cs with
    | nil => rfl
    | cons c cs ih => simp [Pattern.greatestHeight, Pattern.itself, Pattern.height, ih]
  have kept : ∀ cs : List Char,
      Pattern.flagsAfterAll .initial (cs.map Pattern.itself) = some .initial := by
    intro cs
    induction cs with
    | nil => rfl
    | cons c cs ih => exact ih
  match cs with
  | [] => rfl
  | [c] => rfl
  | c :: d :: cs =>
    have hj : Pattern.Reading.joined ((c :: d :: cs).map Pattern.itself)
        = .sequence ((c :: d :: cs).reverse.map Pattern.itself) := by
      rw [List.map_reverse]
      rfl
    rw [hj, Pattern.usable, Pattern.height, Pattern.flagsAfter, flat, kept]
    rfl

theorem isPattern_of_isAlphanum {cs : List Char} (h : cs.all Char.isAlphanum = true) :
    isPattern cs = true := by
  rw [isPattern, Pattern.parse_of_isAlphanum h, ← List.map_reverse]
  exact Pattern.usable_joined_itself cs.reverse

end FractalShader.Log
