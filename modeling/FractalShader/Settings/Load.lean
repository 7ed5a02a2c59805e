import FractalShader.Action
import FractalShader.Settings.Codec

/-!
# Loading settings

Settings come from a file, which must be readable text and a well-formed
settings object.
-/

namespace FractalShader.Settings

open FractalShader.Action

/-- Read the settings file `p`. -/
def load (p : Path) : Action Settings := do
  let text ← ask p (·.readText p)
  match decode text with
  | .ok settings => pure settings
  | .error fault => refuse (.settings p.text (fault.message text.toList))

end FractalShader.Settings
