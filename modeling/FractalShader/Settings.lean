/-!
# Settings

File extensions and include paths.  Every field has a default, so an empty
settings file is a valid one.
-/

namespace FractalShader

/-- How a store names its files and what generated code includes. -/
structure Settings where
  /-- Extension of both shader fragments. -/
  fragmentExt : String
  /-- Extension of the description document. -/
  documentExt : String
  /-- Directory that every include path starts with. -/
  includeRoot : String
  /-- Stem of the shader library. -/
  libraryInclude : String
  /-- Stem of the ray marcher, which is included last. -/
  driverInclude : String
  deriving DecidableEq

namespace Settings

instance : Inhabited Settings :=
  ⟨"ush", "json", "/PluginShaders/", "SDFractalLibrary", "RayMarchingFractal"⟩

/-- The path that an include directive names for the fragment of this stem. -/
def includePath (s : Settings) (stem : String) : String :=
  s.includeRoot ++ stem ++ "." ++ s.fragmentExt

end Settings

end FractalShader
