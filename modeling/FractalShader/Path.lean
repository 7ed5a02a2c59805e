import FractalShader.Text.Fields

/-!
# Paths

A path is the text that was written for it.  Two spellings of one path are
compared by their *components*: repeated and trailing slashes do not count, nor
do `.` components other than a leading one; `..` is kept as it stands.

* `mem_pieces` — a piece is not empty and holds no slash;
* `nameIn?_eq_some_iff` — a path names an entry of a directory exactly when its
  components are those of the directory and that one name.
-/

namespace FractalShader

/-! ## Pieces -/

/-- The pieces of a path: what stands between its slashes, where something does. -/
def pieces (cs : List Char) : List String :=
  ((fields '/' cs).filter (· ≠ [])).map String.ofList

theorem mem_pieces {cs : List Char} {s : String} (h : s ∈ pieces cs) :
    s ≠ "" ∧ '/' ∉ s.toList := by
  simp only [pieces, List.mem_map, List.mem_filter, decide_eq_true_eq] at h
  obtain ⟨p, ⟨hp, hne⟩, rfl⟩ := h
  refine ⟨fun h => hne ?_, ?_⟩
  · simpa using congrArg String.toList h
  · simpa using separator_not_mem p hp

/-! ## Components -/

/-- One component of a path. -/
inductive Component where
  /-- The slash that starts an absolute path. -/
  | root
  /-- A leading `.` of a relative path. -/
  | here
  /-- The parent directory, `..`. -/
  | up
  | normal (name : String)
  deriving DecidableEq

def Component.text : Component → String
  | root => ""
  | here => "."
  | up => ".."
  | normal name => name

/-- A path, as it was written. -/
structure Path where
  text : String
  deriving DecidableEq

namespace Path

def isAbsolute (p : Path) : Bool := p.text.toList.head? = some '/'

/-- The components of a path, in order. -/
def components (p : Path) : List Component :=
  let ps := pieces p.text.toList
  let start :=
    if p.isAbsolute then [.root] else if ps.head? = some "." then [.here] else []
  start ++ (ps.filter (· ≠ ".")).map fun s => if s = ".." then .up else .normal s

/-- The path with these components, written in the plainest way. -/
def ofComponents : List Component → Path
  | [.root] => ⟨"/"⟩
  | cs => ⟨"/".intercalate (cs.map Component.text)⟩

/-- The path without its last component, for a path that has one to lose. -/
def parent? (p : Path) : Option Path :=
  match p.components.getLast? with
  | none => none
  | some .root => none
  | some _ => some (ofComponents p.components.dropLast)

/-- The name under which `p` is an entry of the directory `dir`. -/
def nameIn? (dir p : Path) : Option String :=
  match p.components.getLast? with
  | some (.normal name) => if p.components.dropLast = dir.components then some name else none
  | _ => none

/-- A path of these components, innermost first, and of each directory on the way to it.  The
top of the disk and the place where a relative path starts are always there and do not
count. -/
def lineage : List Component → List (List Component)
  | [] => []
  | [.root] => []
  | c :: above => (c :: above) :: lineage above

/-- `p` and every directory on the way to it, the innermost first. -/
def ancestors (p : Path) : List Path :=
  match lineage p.components.reverse with
  | [] => []
  | _ :: above => p :: above.map fun cs => ofComponents cs.reverse

/-- The path of the entry `file` of the directory `p`. -/
def join (p : Path) (file : String) : Path :=
  if file.toList.head? = some '/' then ⟨file⟩
  else if p.text = "" then ⟨file⟩
  else if p.text.toList.getLast? = some '/' then ⟨p.text ++ file⟩
  else ⟨p.text ++ "/" ++ file⟩

theorem nameIn?_eq_some_iff {dir p : Path} {name : String} :
    nameIn? dir p = some name ↔ p.components = dir.components ++ [.normal name] := by
  unfold nameIn?
  rcases List.eq_nil_or_concat p.components with h | ⟨cs, c, h⟩
  · simp [h]
  · cases c <;> simp [h]

end Path

end FractalShader
