import FractalShader.Disk
import FractalShader.Error
import FractalShader.Path

/-!
# Reaching files by path

A path is followed from the working directory, or from the top when it is
absolute, one piece after another; every piece but the last must be an existing
directory.  What is then asked of the last piece decides which error a missing
or a wrong entry gives.

* `lookUp_eq_ok_iff` — every name of a possible size can be looked up;
* `walk_append` — following a path in two parts is following it in one;
* `walk_directory` — following a path from a directory ends in a directory.
-/

namespace FractalShader.Disk

/-! ## Following a path -/

/-- The greatest size of one piece of a path, in bytes. -/
def greatestPiece : Nat := 255

/-- The greatest size of a whole path, in bytes. -/
def greatestPath : Nat := 4095

/-- What the directory `dir` has under `name`.  A name that is too long is refused. -/
def lookUp (d : Disk) (dir : Place) (name : String) : Except OsError (Option Node) :=
  if greatestPiece < name.utf8ByteSize then .error .nameTooLong else .ok (d.node? (name :: dir))

theorem lookUp_eq_ok_iff {d : Disk} {dir : Place} {name : String} {x : Option Node} :
    d.lookUp dir name = .ok x ↔ name.utf8ByteSize ≤ greatestPiece ∧ d.node? (name :: dir) = x := by
  unfold lookUp
  by_cases h : greatestPiece < name.utf8ByteSize
  · simp [h, Nat.not_le_of_gt h]
  · simp [h, Nat.le_of_not_lt h]

/-- Go from the directory `dir` into its subdirectory `piece`. -/
def enter (d : Disk) (dir : Place) (piece : String) : Except OsError Place :=
  if piece = "." then .ok dir
  else if piece = ".." then .ok dir.tail
  else match d.lookUp dir piece with
    | .error e => .error e
    | .ok none => .error .notFound
    | .ok (some (.file _)) => .error .notADirectory
    | .ok (some .directory) => .ok (piece :: dir)

/-- Go from the directory `dir` through the directories `pieces`. -/
def walk (d : Disk) : Place → List String → Except OsError Place
  | dir, [] => .ok dir
  | dir, piece :: rest =>
    match d.enter dir piece with
    | .ok next => d.walk next rest
    | .error e => .error e

theorem walk_append (d : Disk) (dir : Place) (xs ys : List String) :
    d.walk dir (xs ++ ys) = match d.walk dir xs with
      | .ok next => d.walk next ys
      | .error e => .error e := by
  induction xs generalizing dir with
  | nil => rfl
  | cons x xs ih =>
    simp only [List.cons_append, walk]
    split
    · exact ih _
    · rfl

theorem enter_directory {d : Disk} {dir next : Place} {piece : String}
    (hdir : d.node? dir = some .directory) (h : d.enter dir piece = .ok next) :
    d.node? next = some .directory := by
  unfold enter at h
  split at h
  · cases h; exact hdir
  · split at h
    · cases h
      cases dir with
      | nil => exact hdir
      | cons name above => exact @node?_parent d name above (by simp [hdir])
    · split at h
      · exact absurd h (by simp)
      · exact absurd h (by simp)
      · exact absurd h (by simp)
      · next hn =>
        cases h
        exact (lookUp_eq_ok_iff.mp hn).2

theorem walk_directory {d : Disk} {dir next : Place} {xs : List String}
    (hdir : d.node? dir = some .directory) (h : d.walk dir xs = .ok next) :
    d.node? next = some .directory := by
  induction xs generalizing dir with
  | nil => cases h; exact hdir
  | cons x xs ih =>
    simp only [walk] at h
    split at h
    · next hx => exact ih (enter_directory hdir hx) h
    · exact absurd h (by simp)

/-- Where a path leads: to a directory named by no entry, such as `..`, or to the entry `name`
of an existing directory, which need not exist itself.  `slash` says that the path insists on a
directory by a slash at its end. -/
inductive Spot where
  | directory (place : Place)
  | entry (dir : Place) (name : String) (slash : Bool)
  deriving DecidableEq

/-- Follow a path up to its last piece. -/
def locate (d : Disk) (p : Path) : Except OsError Spot :=
  let start := if p.isAbsolute then [] else d.home
  let ps := pieces p.text.toList
  if '\x00' ∈ p.text.toList then .error .nulInPath
  else if p.text = "" then .error .notFound
  else if greatestPath < p.text.utf8ByteSize then .error .nameTooLong
  else match ps.getLast? with
    | none => .ok (.directory start)
    | some last =>
      match d.walk start ps.dropLast with
      | .error e => .error e
      | .ok dir =>
        if last = "." then .ok (.directory dir)
        else if last = ".." then .ok (.directory dir.tail)
        else .ok (.entry dir last (decide (p.text.toList.getLast? = some '/')))

/-! ## Looking -/

/-- What stands where `p` leads, with its place. -/
def find (d : Disk) (p : Path) : Except OsError (Place × Node) :=
  match d.locate p with
  | .error e => .error e
  | .ok (.directory place) => .ok (place, .directory)
  | .ok (.entry dir name slash) =>
    match d.lookUp dir name with
    | .error e => .error e
    | .ok none => .error .notFound
    | .ok (some .directory) => .ok (name :: dir, .directory)
    | .ok (some (.file content)) =>
      if slash then .error .notADirectory else .ok (name :: dir, .file content)

/-- Does something stand where `p` leads?  That nothing stands there is no error. -/
def exists? (d : Disk) (p : Path) : Except OsError Bool :=
  match d.find p with
  | .ok _ => .ok true
  | .error .notFound => .ok false
  | .error e => .error e

def isDirectory (d : Disk) (p : Path) : Bool :=
  match d.find p with
  | .ok (_, .directory) => true
  | _ => false

/-- The content of the file `p`. -/
def readFile (d : Disk) (p : Path) : Except OsError ByteArray :=
  match d.find p with
  | .error e => .error e
  | .ok (_, .directory) => .error .isADirectory
  | .ok (_, .file content) => .ok content

/-- The content of the file `p` as text. -/
def readText (d : Disk) (p : Path) : Except OsError String :=
  match d.readFile p with
  | .error e => .error e
  | .ok content =>
    match String.fromUTF8? content with
    | some text => .ok text
    | none => .error .notUtf8

/-- The names of the entries of the directory `p`. -/
def list (d : Disk) (p : Path) : Except OsError (List String) :=
  match d.find p with
  | .error e => .error e
  | .ok (_, .file _) => .error .notADirectory
  | .ok (place, .directory) => .ok (d.children place)

/-! ## Changing -/

/-- Write a file, replacing what it held.  A path that insists on a directory is refused before
its last name is looked up. -/
def writeFile (d : Disk) (p : Path) (content : ByteArray) : Except OsError Disk :=
  match d.locate p with
  | .error e => .error e
  | .ok (.directory _) => .error .isADirectory
  | .ok (.entry dir name slash) =>
    if slash then .error .isADirectory
    else match d.lookUp dir name with
      | .error e => .error e
      | .ok (some .directory) => .error .isADirectory
      | .ok _ => .ok (d.put name dir (.file content))

/-- Remove a file. -/
def removeFile (d : Disk) (p : Path) : Except OsError Disk :=
  match d.locate p with
  | .error e => .error e
  | .ok (.directory _) => .error .isADirectory
  | .ok (.entry dir name slash) =>
    match d.lookUp dir name with
    | .error e => .error e
    | .ok none => .error .notFound
    | .ok (some .directory) => .error .isADirectory
    | .ok (some (.file _)) => if slash then .error .notADirectory else .ok (d.eraseFile (name :: dir))

/-- Make one directory; what leads to it must exist. -/
def makeDirectory (d : Disk) (p : Path) : Except OsError Disk :=
  match d.locate p with
  | .error e => .error e
  | .ok (.directory _) => .error .fileExists
  | .ok (.entry dir name _) =>
    match d.lookUp dir name with
    | .error e => .error e
    | .ok (some _) => .error .fileExists
    | .ok none => .ok (d.put name dir .directory)

/-- Make the first of these directories, and for that as many of the others as are missing, each
of which leads to the one before it.  What was made before an error stays. -/
def makeLineage (d : Disk) : List Path → Disk × Except OsError Unit
  | [] => (d, .ok ())
  | p :: above =>
    match d.makeDirectory p with
    | .ok made => (made, .ok ())
    | .error .notFound =>
      match d.makeLineage above with
      | (below, .error e) => (below, .error e)
      | (below, .ok ()) =>
        match below.makeDirectory p with
        | .ok made => (made, .ok ())
        | .error e =>
          (below, if e = .fileExists ∧ below.isDirectory p then .ok () else .error e)
    | .error e => (d, if e = .fileExists ∧ d.isDirectory p then .ok () else .error e)

/-- Make a directory and all that lead to it, where they are missing. -/
def makeDirectories (d : Disk) (p : Path) : Disk × Except OsError Unit :=
  d.makeLineage p.ancestors

/-! ## Changes by others -/

/-- Write a file after making the directories that lead to it. -/
def writeFileAndParents (d : Disk) (p : Path) (content : ByteArray) : Except OsError Disk :=
  match p.parent? with
  | none => d.writeFile p content
  | some parent =>
    match d.makeDirectories parent with
    | (_, .error e) => .error e
    | (made, .ok ()) => made.writeFile p content

/-- Remove a file, or a directory with everything in it. -/
def removeAll (d : Disk) (p : Path) : Except OsError Disk :=
  match d.find p with
  | .error e => .error e
  | .ok (place, _) => .ok (d.eraseTree place)

end FractalShader.Disk
