/-!
# What can go wrong with a preset

One inductive type holds every failure of the library, by cause; its wording is
in `PresetError.message` alone.  `NameFault` says why a name cannot be used and
`OsError` why the disk refused a request.
-/

namespace FractalShader

/-! ## Names -/

/-- Why a preset name is refused. -/
inductive NameFault where
  | empty
  | relative
  | separator
  | padded
  /-- Its driver is the distance fragment of another preset. -/
  | takesFragment
  /-- Its distance fragment is the driver of another preset. -/
  | takesDriver
  deriving DecidableEq

def NameFault.message : NameFault → String
  | .empty => "name is empty"
  | .relative => "name is a relative path"
  | .separator => "name contains a path separator"
  | .padded => "name has surrounding whitespace"
  | .takesFragment => "driver would overwrite the distance fragment of an existing preset"
  | .takesDriver => "distance fragment would overwrite the driver of an existing preset"

/-! ## The disk -/

/-- Why the disk refused a request. -/
inductive OsError where
  | notFound
  | fileExists
  | notADirectory
  | isADirectory
  /-- A path component is over 255 bytes, or the whole path over 4095. -/
  | nameTooLong
  /-- A file read as text does not hold UTF-8. -/
  | notUtf8
  | nulInPath
  | other (text : String)
  deriving DecidableEq

def OsError.message : OsError → String
  | .notFound => "No such file or directory (os error 2)"
  | .fileExists => "File exists (os error 17)"
  | .notADirectory => "Not a directory (os error 20)"
  | .isADirectory => "Is a directory (os error 21)"
  | .nameTooLong => "File name too long (os error 36)"
  | .notUtf8 => "stream did not contain valid UTF-8"
  | .nulInPath => "file name contained an unexpected NUL byte"
  | .other text => text

/-! ## Presets -/

/-- Every way in which an operation on presets fails.  Paths are held as they are displayed. -/
inductive PresetError where
  /-- A kind outside the catalog; `what` says which. -/
  | unknownKind (what : String)
  /-- No preset of this name exists. -/
  | notFound (name : String)
  /-- The description document is missing or cannot be decoded. -/
  | malformedDocument (path reason : String)
  | invalidName (name : String) (fault : NameFault)
  /-- Saving would replace tags nobody recognises by a placeholder. -/
  | unrecognisedKinds (name : String)
  | indexOutOfRange (index length : Nat)
  | io (path : String) (cause : OsError)
  /-- The file watcher could not be set up. -/
  | watch (text : String)
  | settings (path reason : String)
  deriving DecidableEq

namespace PresetError

def message : PresetError → String
  | unknownKind what => "unknown kind: " ++ what
  | notFound name => "no preset named '" ++ name ++ "'"
  | malformedDocument path reason =>
    "malformed description document " ++ path ++ ": " ++ reason
  | invalidName name fault => "invalid preset name '" ++ name ++ "': " ++ fault.message
  | unrecognisedKinds name =>
    "preset '" ++ name ++ "' holds unrecognised kinds; refusing to overwrite its document"
  | indexOutOfRange index length =>
    "operation index " ++ Nat.repr index ++ " out of range (chain has " ++ Nat.repr length
      ++ " entries)"
  | io path cause => path ++ ": " ++ cause.message
  | watch text => "file watcher: " ++ text
  | settings path reason => "settings " ++ path ++ ": " ++ reason

/-- The message of the failure beneath this one, where there is one. -/
def source? : PresetError → Option String
  | io _ cause => some cause.message
  | watch text => some text
  | _ => none

/-- The two outcomes that mean "nothing usable is stored under this name". -/
def isAbsent : PresetError → Bool
  | notFound _ => true
  | malformedDocument _ _ => true
  | _ => false

end PresetError

end FractalShader
