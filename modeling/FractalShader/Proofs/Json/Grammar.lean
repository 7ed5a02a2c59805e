import FractalShader.Json.Skip

/-!
# The grammar of JSON

What a JSON text is, said by its form and without a reader.  A value is a list of
characters; the entries of a list and the members of an object stand between blanks and
after commas.  The characters of a string are spelled by themselves, by a short escape
or by units of 16 bits, two of which may be needed for one character; so a string that
is well formed need not spell any text, when half of a pair stands alone in it.

* `Body`, `Means`, `Spells` — how strings are formed, and what text they spell;
* `IsNumber` — numbers;
* `Entries`, `Item`, `Member` — what stands between brackets;
* `IsValue` — values of any depth;
* `ListText`, `ObjectText` — whole texts with the entries they have.
-/

namespace FractalShader.Json

/-! ## Blanks -/

/-- Nothing but blanks. -/
def Blanks (w : List Char) : Prop := ∀ c ∈ w, isBlank c = true

/-! ## Strings -/

/-- What a piece of a string stands for: a character, or a unit of 16 bits. -/
inductive Piece where
  | char (c : Char)
  | code (n : Nat)

/-- The letters that stand for a character after a backslash. -/
inductive ShortEscape : Char → Char → Prop where
  | quote : ShortEscape '"' '"'
  | backslash : ShortEscape '\\' '\\'
  | slash : ShortEscape '/' '/'
  | backspace : ShortEscape 'b' '\x08'
  | formFeed : ShortEscape 'f' '\x0c'
  | lineFeed : ShortEscape 'n' '\n'
  | carriageReturn : ShortEscape 'r' '\r'
  | tab : ShortEscape 't' '\t'

/-- A hexadecimal digit, in either case, with its value. -/
def HexDigit (c : Char) (n : Nat) : Prop :=
  n < 16 ∧ (c = Nat.digitChar n ∨ c = (Nat.digitChar n).toUpper)

/-- Four hexadecimal digits, the one that counts most first. -/
inductive HexUnit : Char → Char → Char → Char → Nat → Prop where
  | mk {a b c d : Char} {i j k l : Nat} (ha : HexDigit a i) (hb : HexDigit b j)
      (hc : HexDigit c k) (hd : HexDigit d l) :
      HexUnit a b c d (4096 * i + 256 * j + 16 * k + l)

/-- What stands between the quotes of a string, with its pieces. -/
inductive Body : List Char → List Piece → Prop where
  | nil : Body [] []
  | plain {c : Char} {cs : List Char} {ps : List Piece} (hquote : c ≠ '"') (hback : c ≠ '\\')
      (hcontrol : ' ' ≤ c) (h : Body cs ps) : Body (c :: cs) (.char c :: ps)
  | short {e c : Char} {cs : List Char} {ps : List Piece} (he : ShortEscape e c)
      (h : Body cs ps) : Body ('\\' :: e :: cs) (.char c :: ps)
  | code {a b c d : Char} {n : Nat} {cs : List Char} {ps : List Piece} (hn : HexUnit a b c d n)
      (h : Body cs ps) : Body ('\\' :: 'u' :: a :: b :: c :: d :: cs) (.code n :: ps)

/-- The characters that pieces stand for.  A character beyond 16 bits takes a pair of units, the
first of them high and the second low; no unit of such a pair stands for a character alone. -/
inductive Means : List Piece → List Char → Prop where
  | nil : Means [] []
  | char {c : Char} {ps : List Piece} {s : List Char} (h : Means ps s) :
      Means (.char c :: ps) (c :: s)
  | single {c : Char} {ps : List Piece} {s : List Char} (h : Means ps s) :
      Means (.code c.toNat :: ps) (c :: s)
  | pair {high low : Nat} {c : Char} {ps : List Piece} {s : List Char}
      (hhigh : 0xD800 ≤ high ∧ high < 0xDC00) (hlow : 0xDC00 ≤ low ∧ low < 0xE000)
      (hc : c.toNat = 0x10000 + (high - 0xD800) * 0x400 + (low - 0xDC00)) (h : Means ps s) :
      Means (.code high :: .code low :: ps) (c :: s)

/-- The value `v` is a string that spells the text `s`. -/
def Spells (v : List Char) (s : String) : Prop :=
  ∃ body ps, Body body ps ∧ Means ps s.toList ∧ v = '"' :: (body ++ ['"'])

/-! ## Numbers -/

/-- At least one digit. -/
def Digits (ds : List Char) : Prop := ds ≠ [] ∧ ∀ c ∈ ds, isDigit c = true

/-- The whole part of a number: a zero alone, or digits that start with another. -/
inductive Whole : List Char → Prop where
  | zero : Whole ['0']
  | digits {c : Char} {ds : List Char} (hzero : c ≠ '0') (h : Digits (c :: ds)) : Whole (c :: ds)

inductive Fraction : List Char → Prop where
  | absent : Fraction []
  | present {ds : List Char} (h : Digits ds) : Fraction ('.' :: ds)

inductive Exponent : List Char → Prop where
  | absent : Exponent []
  | present {e : Char} {sign ds : List Char} (he : e = 'e' ∨ e = 'E')
      (hsign : sign = [] ∨ sign = ['+'] ∨ sign = ['-']) (h : Digits ds) :
      Exponent (e :: (sign ++ ds))

/-- A number without its sign. -/
def IsMagnitude (n : List Char) : Prop :=
  ∃ w f e, Whole w ∧ Fraction f ∧ Exponent e ∧ n = w ++ (f ++ e)

def IsNumber (n : List Char) : Prop :=
  IsMagnitude n ∨ ∃ m, IsMagnitude m ∧ n = '-' :: m

/-! ## Brackets -/

section Entries

variable {α : Type} (P : α → List Char → Prop)

/-- What may follow an entry between brackets: blanks, and further entries after commas.  `P` says
how an entry is written, together with the blanks before it. -/
inductive Later : List α → List Char → Prop where
  | done {w : List Char} (hw : Blanks w) : Later [] w
  | more {w t ts : List Char} {a : α} {as : List α} (hw : Blanks w) (h : P a t)
      (hs : Later as ts) : Later (a :: as) (w ++ ',' :: (t ++ ts))

/-- Entries between brackets. -/
inductive Entries : List α → List Char → Prop where
  | none {w : List Char} (hw : Blanks w) : Entries [] w
  | some {t ts : List Char} {a : α} {as : List α} (h : P a t) (hs : Later P as ts) :
      Entries (a :: as) (t ++ ts)

end Entries

/-- An entry of a list: a value, after blanks. -/
inductive Item : List Char → List Char → Prop where
  | mk {w v : List Char} (hw : Blanks w) : Item v (w ++ v)

/-- The name that the pieces of a key spell, or none. -/
def Names (ps : List Piece) : Option String → Prop
  | some s => Means ps s.toList
  | none => ∀ s, ¬ Means ps s

/-- A member of an object: its name, if its key spells one, and its value. -/
inductive Member : Option String × List Char → List Char → Prop where
  | mk {w body w₁ w₂ v : List Char} {ps : List Piece} {name : Option String} (hw : Blanks w)
      (hbody : Body body ps) (hname : Names ps name) (h₁ : Blanks w₁) (h₂ : Blanks w₂) :
      Member (name, v) (w ++ '"' :: (body ++ '"' :: (w₁ ++ ':' :: (w₂ ++ v))))

/-! ## Values -/

/-- A value, nested to any depth. -/
inductive IsValue : List Char → Prop where
  | null : IsValue ['n', 'u', 'l', 'l']
  | yes : IsValue ['t', 'r', 'u', 'e']
  | no : IsValue ['f', 'a', 'l', 's', 'e']
  | number {v : List Char} (h : IsNumber v) : IsValue v
  | string {body : List Char} {ps : List Piece} (h : Body body ps) :
      IsValue ('"' :: (body ++ ['"']))
  | list {vs : List (List Char)} {es : List Char} (h : Entries Item vs es)
      (hv : ∀ v ∈ vs, IsValue v) : IsValue ('[' :: (es ++ [']']))
  | object {ms : List (Option String × List Char)} {es : List Char} (h : Entries Member ms es)
      (hv : ∀ m ∈ ms, IsValue m.2) : IsValue ('\x7b' :: (es ++ ['\x7d']))

/-! ## Whole texts -/

/-- The text is a list with these values for its entries. -/
def ListText (vs : List (List Char)) (text : List Char) : Prop :=
  (∀ v ∈ vs, IsValue v) ∧ ∃ w es w', Blanks w ∧ Entries Item vs es ∧ Blanks w' ∧
    text = w ++ '[' :: (es ++ ']' :: w')

/-- The text is an object with these members, in their order. -/
def ObjectText (ms : List (Option String × List Char)) (text : List Char) : Prop :=
  (∀ m ∈ ms, IsValue m.2) ∧ ∃ w es w', Blanks w ∧ Entries Member ms es ∧ Blanks w' ∧
    text = w ++ '\x7b' :: (es ++ '\x7d' :: w')

end FractalShader.Json
