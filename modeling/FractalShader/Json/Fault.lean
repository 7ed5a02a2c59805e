import FractalShader.Text.Bytes
import FractalShader.Text.Quoted

/-!
# Why a JSON text is refused

A fault has a cause and a position.  While a text is read, the position is kept
as the number of bytes that are left after it, because that is what a reader
knows from its remaining input; `Fault.position` turns it into a line and a
column of the whole text.

* `advance_append_line` — a line break starts the next line at column zero.
-/

namespace FractalShader.Json

/-! ## Causes -/

/-- A value that stands where another kind of value was expected. -/
inductive Found where
  | null
  | boolean (value : Bool)
  | integer (value : Int)
  /-- A number that is no 64-bit integer, as it is shown. -/
  | floating (text : String)
  | string (text : String)
  | sequence
  | map
  deriving DecidableEq

def Found.description : Found → String
  | null => "null"
  | boolean true => "boolean `true`"
  | boolean false => "boolean `false`"
  | integer value => "integer `" ++ Int.repr value ++ "`"
  | floating text => "floating point `" ++ text ++ "`"
  | string text => "string " ++ quoted text
  | sequence => "sequence"
  | map => "map"

/-- Why a JSON text is refused. -/
inductive Cause where
  | endInValue
  | endInString
  | endInList
  | endInObject
  | expectedIdent
  | expectedValue
  | expectedColon
  | expectedCommaOrBracket
  | expectedCommaOrBrace
  | keyMustBeString
  | trailingComma
  | trailingCharacters
  | controlCharacter
  | invalidEscape
  | loneSurrogate
  | unexpectedEndOfEscape
  | invalidNumber
  | numberOutOfRange
  | invalidType (found : Found) (expected : String)
  | duplicateField (name : String)
  | unknownField (name : String) (known : List String)
  deriving DecidableEq

/-- Faults fall in three classes: the text ends too early, it is no JSON, or it is JSON of
another shape than was wanted. -/
inductive Category where
  | unexpectedEnd
  | badSyntax
  | badData
  deriving DecidableEq

namespace Cause

def category : Cause → Category
  | endInValue | endInString | endInList | endInObject => .unexpectedEnd
  | invalidType _ _ | duplicateField _ | unknownField _ _ => .badData
  | _ => .badSyntax

def message : Cause → String
  | endInValue => "EOF while parsing a value"
  | endInString => "EOF while parsing a string"
  | endInList => "EOF while parsing a list"
  | endInObject => "EOF while parsing an object"
  | expectedIdent => "expected ident"
  | expectedValue => "expected value"
  | expectedColon => "expected `:`"
  | expectedCommaOrBracket => "expected `,` or `]`"
  | expectedCommaOrBrace => "expected `,` or `\x7d`"
  | keyMustBeString => "key must be a string"
  | trailingComma => "trailing comma"
  | trailingCharacters => "trailing characters"
  | controlCharacter => "control character (\\u0000-\\u001F) found while parsing a string"
  | invalidEscape => "invalid escape"
  | loneSurrogate => "lone leading surrogate in hex escape"
  | unexpectedEndOfEscape => "unexpected end of hex escape"
  | invalidNumber => "invalid number"
  | numberOutOfRange => "number out of range"
  | invalidType found expected => "invalid type: " ++ found.description ++ ", expected " ++ expected
  | duplicateField name => "duplicate field `" ++ name ++ "`"
  | unknownField name known =>
    "unknown field `" ++ name ++ "`, expected one of "
      ++ ", ".intercalate (known.map fun k => "`" ++ k ++ "`")

end Cause

/-! ## Positions -/

/-- A cause, with the number of bytes of the text that are left after the place of the fault. -/
structure Fault where
  cause : Cause
  left : Nat
  deriving DecidableEq

namespace Fault

/-- A fault just before `rest`. -/
def before (cause : Cause) (rest : List Char) : Fault := ⟨cause, byteCount rest⟩

/-- A fault just after the first byte of `rest`, or at the end where nothing is left. -/
def after (cause : Cause) (rest : List Char) : Fault := ⟨cause, byteCount rest - 1⟩

/-- Line and column after `bytes` bytes of `cs`, from the line and the column where `cs` starts.
The column is the number of bytes since the last line break. -/
def advance : List Char → Nat → Nat → Nat → Nat × Nat
  | [], _, line, column => (line, column)
  | c :: cs, bytes, line, column =>
    if bytes = 0 then (line, column)
    else if c = '\n' then advance cs (bytes - 1) (line + 1) 0
    else advance cs (bytes - c.utf8Size) line (column + min bytes c.utf8Size)

theorem advance_append_line (cs : List Char) (bytes line column : Nat) (h : bytes ≠ 0) :
    advance ('\n' :: cs) bytes line column = advance cs (bytes - 1) (line + 1) 0 := by
  simp [advance, h]

/-- The line, counted from one, and the column of a fault in `text`. -/
def position (f : Fault) (text : List Char) : Nat × Nat :=
  advance text (byteCount text - f.left) 1 0

/-- The wording of a fault in `text`, with its position. -/
def message (f : Fault) (text : List Char) : String :=
  let (line, column) := f.position text
  f.cause.message ++ " at line " ++ Nat.repr line ++ " column " ++ Nat.repr column

end Fault

end FractalShader.Json
