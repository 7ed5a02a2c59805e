import FractalShader.Decimal.Numeral
import FractalShader.Log
import FractalShader.Log.Pattern.Reader
import FractalShader.Text.Alphanumeric
import FractalShader.Text.Bytes
import FractalShader.Text.Fields
import FractalShader.Text.WhiteSpace

/-!
# Log filters

Which lines are shown.  A filter is a list of directives, each of which sets the
least important level that is shown of the lines it is about; of several that
are about a line, the one that says most about it counts.  Between commas, a
directive is written `info`, `part`, `part=debug`, or with brackets after the
part: `part[span]=debug`, `[{field}]` or `[{field=pattern}]=info`.

* `shows_standard` — with the standard filter, a line of the program is shown
  when its level is important enough.
-/

namespace FractalShader.Log

/-- Which lines from a target a directive is about. -/
inductive Scope where
  /-- All of them. -/
  | any
  /-- Those that have the field. -/
  | having (field : String)
  /-- Those inside of certain spans.  The program opens no span, so there are none. -/
  | inside
  deriving DecidableEq

/-- One directive: lines in its scope, from a target that starts with `target`, are shown up to
the level of rank `most`. -/
structure Directive where
  target : String
  scope : Scope
  most : Nat
  deriving DecidableEq

/-- The directives of a filter, in the order in which they were given. -/
abbrev Filter := List Directive

/-! ## Reading -/

/-- The rank that a number stands for; zero shows nothing. -/
def rankOfNumber (cs : List Char) : Option Nat :=
  let digits := if cs.head? = some '+' then cs.tail else cs
  if digits ≠ [] ∧ digits.all Char.isDigit ∧ Decimal.digitsValue digits ≤ Level.trace.rank then
    some (Decimal.digitsValue digits)
  else none

/-- The rank that the name of a level, in whatever case, stands for. -/
def rankOfName (cs : List Char) : Option Nat :=
  let lower := String.ofList (cs.map Char.toLower)
  if lower = "off" then some 0
  else if lower = "error" then some Level.error.rank
  else if lower = "warn" then some Level.warn.rank
  else if lower = "info" then some Level.info.rank
  else if lower = "debug" then some Level.debug.rank
  else if lower = "trace" then some Level.trace.rank
  else none

/-- The rank that a level, given by number or by name, stands for. -/
def rankOf (cs : List Char) : Option Nat := (rankOfNumber cs).or (rankOfName cs)

/-- The rank after an equals sign, where no level means every level. -/
def rankGiven (cs : List Char) : Option Nat :=
  if cs = [] then some Level.trace.rank else rankOf cs

/-- Is this a number with a plus sign before it? -/
def isSignedNumber (cs : List Char) : Bool :=
  match cs with
  | '+' :: number =>
    let mantissa := number.takeWhile fun c => c.isDigit || c = '.'
    let lower := String.ofList (number.map Char.toLower)
    lower = "inf" || lower = "infinity" || lower = "nan"
      || (mantissa.any Char.isDigit && mantissa.count '.' ≤ 1
        && match number.drop mantissa.length with
          | [] => true
          | mark :: power =>
            let digits :=
              if power.head? = some '+' ∨ power.head? = some '-' then power.tail else power
            (mark = 'e' || mark = 'E') && digits ≠ [] && digits.all Char.isDigit)
  | _ => false

/-- Read a field with or without the pattern of its value.  What values fields had in a span is
not known of a line, so that a directive with a pattern is about lines inside of spans. -/
def Scope.ofField (cs : List Char) : Option Scope :=
  match fields '=' cs with
  | [name] => if name = [] then none else some (.having (String.ofList name))
  | _ :: pattern :: _ =>
    if isSignedNumber pattern || isPattern pattern then some .inside else none
  | [] => none

/-- Read what stands after an opening bracket, up to the closing one, and give what follows.
There are `before` bytes before it, not counting white space at the start; a field is read where
it would stand in the written text if there were none. -/
def Scope.parse (written : List Char) (before : Nat) (cs : List Char) :
    Option (Scope × List Char) :=
  let span := cs.takeWhile fun c => c ≠ ']' && c ≠ '\x7b'
  match cs.drop span.length with
  | ']' :: rest => some (.inside, rest)
  | '\x7b' :: field =>
    let name := field.takeWhile (· ≠ '\x7d')
    let start := before + byteCount span + 1
    match field.drop name.length with
    | '\x7d' :: ']' :: rest =>
      (Scope.ofField (takeBytes (byteCount name) (dropBytes start written))).map fun scope =>
        (if span = [] then scope else .inside, rest)
    | _ => none
  | _ => none

/-- May a directive start with this character? -/
def startsDirective (c : Char) : Bool :=
  isAlphanumeric c || c = '_' || c = '-' || c = ':' || c = '['

/-- Read one directive.  White space before it is part of its target, which no target of the
program starts with, and keeps it from setting a level; white space after it is part of its last
word, if it ends with one. -/
def Directive.parse (written : List Char) : Option Directive :=
  let indent := written.takeWhile isWhiteSpace
  let cs := written.drop indent.length
  let name := cs.takeWhile fun c => c ≠ '=' && c ≠ '['
  let target := String.ofList (indent ++ name)
  if !cs.head?.any startsDirective then none
  else match cs.drop name.length with
    | [] =>
      match rankOf written with
      | some most => some ⟨"", .any, most⟩
      | none => some ⟨target, .any, Level.trace.rank⟩
    | '[' :: scope =>
      match Scope.parse written (byteCount name + 1) scope with
      | none => none
      | some (scope, '=' :: level) =>
        if indent = [] then (rankGiven level).map fun most => ⟨target, scope, most⟩ else none
      | some (scope, rest) =>
        if rest.all isWhiteSpace then some ⟨target, scope, Level.trace.rank⟩ else none
    | _ :: level =>
      if indent = [] then (rankGiven level).map fun most => ⟨target, .any, most⟩ else none

/-- Read a filter; one directive that is not well formed spoils it.  The empty filter shows
errors. -/
def Filter.parse (s : String) : Option Filter :=
  match (fields ',' s.toList).filter (· ≠ []) with
  | [] => some [⟨"", .any, Level.error.rank⟩]
  | parts => parts.mapM Directive.parse

/-! ## Showing -/

/-- Is the line in the scope?  Every line has its message for a field. -/
def Scope.admits (s : Scope) (l : Line) : Bool :=
  match s with
  | .any => true
  | .having field => field = "message" || l.fields.any fun f => f.1 = field
  | .inside => false

/-- Is the directive about the line? -/
def Directive.concerns (d : Directive) (l : Line) : Bool :=
  d.target.toList.isPrefixOf l.target.toList && d.scope.admits l

/-- Does the second scope say at least as much as the first?  Of two fields, the name decides. -/
def Scope.le : Scope → Scope → Bool
  | .having f, .having g => f ≤ g
  | .having _, _ => false
  | _, _ => true

/-- The directive that says more; of two that say equally much the later. -/
def closer (found : Option Directive) (d : Directive) : Option Directive :=
  match found with
  | none => some d
  | some f =>
    if f.target.length < d.target.length ∨ (f.target.length = d.target.length ∧ f.scope.le d.scope)
    then some d else some f

/-- Is a line shown? -/
def Filter.shows (f : Filter) (l : Line) : Bool :=
  match (f.filter (·.concerns l)).foldl closer none with
  | none => false
  | some d => l.level.rank ≤ d.most

/-- The filter that counts when none is given. -/
def Filter.standard (verbose : Bool) : Filter :=
  [⟨"fractal_compiler", .any, if verbose then Level.debug.rank else Level.info.rank⟩]

/-- The filter given from outside, if it is well formed, else the standard one. -/
def Filter.choose (given : Option String) (verbose : Bool) : Filter :=
  (given.bind Filter.parse).getD (Filter.standard verbose)

/-- What is written at the terminal for an event: the line of a notice always, a line of the log
where the filter shows it. -/
def shown (f : Filter) (verbose : Bool) (e : Event) : String :=
  match e with
  | .notice text => text ++ "\n"
  | e =>
    match line? e with
    | none => ""
    | some l => if f.shows l then l.text verbose ++ "\n" else ""

/-- Every line comes from one of the four parts of the program. -/
theorem target_mem {e : Event} {l : Line} (h : line? e = some l) :
    l.target ∈ [codegenTarget, storeTarget, sessionTarget, watchTarget] := by
  cases e <;> simp only [line?, Option.some.injEq, reduceCtorEq] at h <;> subst h <;> simp

theorem shows_standard {e : Event} {l : Line} (h : line? e = some l) (verbose : Bool) :
    (Filter.standard verbose).shows l
      = decide (l.level.rank ≤ if verbose then Level.debug.rank else Level.info.rank) := by
  have within : ∀ t ∈ [codegenTarget, storeTarget, sessionTarget, watchTarget],
      "fractal_compiler".toList.isPrefixOf t.toList = true := by decide
  have concerned : ∀ most, (Directive.mk "fractal_compiler" .any most).concerns l = true :=
    fun _ => Bool.and_eq_true_iff.2 ⟨within _ (target_mem h), rfl⟩
  simp only [Filter.shows, Filter.standard, List.filter, concerned]
  rfl

end FractalShader.Log
