import FractalShader.Name
import FractalShader.Path
import FractalShader.Settings
import FractalShader.Fragment

/-!
# Preset stores: where a preset is kept

A preset `n` owns three files of the store's directory: its driver, whose
presence marks the preset as existing, its distance fragment, and its
description document, the only one that is read back.  The distance fragment of
`n` has the file name of the driver of `nSDF`; no other two names share a file
when the extensions differ.

* `dropSuffix?_eq_some_iff` — a suffix is dropped exactly where it stands.
-/

namespace FractalShader

/-! ## Suffixes -/

/-- `s` without `suffix` at its end, where it ends so. -/
def dropSuffix? (s suffix : String) : Option String :=
  if suffix.toList.isSuffixOf s.toList then
    some (String.ofList (s.toList.take (s.toList.length - suffix.toList.length)))
  else none

theorem dropSuffix?_eq_some_iff {s suffix t : String} :
    dropSuffix? s suffix = some t ↔ s = t ++ suffix := by
  unfold dropSuffix?
  constructor
  · intro h
    split at h
    · next hs =>
      obtain ⟨u, hu⟩ := List.isSuffixOf_iff_suffix.mp hs
      simp only [Option.some.injEq] at h
      rw [← h, ← String.toList_inj, String.toList_append, String.toList_ofList, ← hu]
      simp
    · exact absurd h (by simp)
  · rintro rfl
    simp

/-! ## Artifacts -/

/-- The files of one preset. -/
structure ArtifactPaths where
  driver : Path
  sdf : Path
  document : Path
  deriving DecidableEq

/-- A directory of presets, with the settings that name its files. -/
structure Store where
  root : Path
  settings : Settings
  deriving DecidableEq

namespace Store

def driverFile (s : Store) (name : String) : String := name ++ "." ++ s.settings.fragmentExt

def sdfFile (s : Store) (name : String) : String :=
  Fragment.sdfStem name ++ "." ++ s.settings.fragmentExt

def documentFile (s : Store) (name : String) : String :=
  name ++ "_Conf" ++ "." ++ s.settings.documentExt

/-- The path of the description document of `name`. -/
def documentPath (s : Store) (name : String) : Path := s.root.join (s.documentFile name)

/-- The files of the preset `name`. -/
def artifacts (s : Store) (name : String) : ArtifactPaths where
  driver := s.root.join (s.driverFile name)
  sdf := s.root.join (s.sdfFile name)
  document := s.documentPath name

/-- The files of the preset `name`, for a name that can be used. -/
def paths (s : Store) (name : String) : Except PresetError ArtifactPaths :=
  match PresetName.check name with
  | .ok () => .ok (s.artifacts name)
  | .error e => .error e

/-- The preset whose description document `p` is, if it is one of this store. -/
def nameForDocument (s : Store) (p : Path) : Option String := do
  let file ← s.root.nameIn? p
  let stem ← dropSuffix? file ("." ++ s.settings.documentExt)
  let name ← dropSuffix? stem "_Conf"
  if PresetName.IsValid name then some name else none

end Store

end FractalShader
