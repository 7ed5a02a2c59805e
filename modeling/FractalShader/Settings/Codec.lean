import FractalShader.Json.Printer
import FractalShader.Json.Record
import FractalShader.Settings

/-!
# Settings files

Settings are read from a JSON object in which every member is optional and none
may be unknown, and are written back on one line with all their members.
-/

namespace FractalShader.Settings

/-- The members of a settings file; there may be no others. -/
def schema : Json.Schema Settings where
  title := "Settings"
  fields :=
    [.of "fragment_ext" Json.readStringValue (fun s v => { s with fragmentExt := v })
        Json.readStringValue_shorter,
      .of "document_ext" Json.readStringValue (fun s v => { s with documentExt := v })
        Json.readStringValue_shorter,
      .of "include_prefix" Json.readStringValue (fun s v => { s with includeRoot := v })
        Json.readStringValue_shorter,
      .of "library_include" Json.readStringValue (fun s v => { s with libraryInclude := v })
        Json.readStringValue_shorter,
      .of "driver_include" Json.readStringValue (fun s v => { s with driverInclude := v })
        Json.readStringValue_shorter]
  closed := true

/-- Read settings; a member that is missing has its default. -/
def decode (text : String) : Except Json.Fault Settings :=
  Json.readAll (Json.readRecord schema default) text.toList

/-- Write settings on one line. -/
def encode (s : Settings) : String :=
  String.ofList <| Json.compactObject
    [Json.member "fragment_ext" (Json.quote s.fragmentExt),
      Json.member "document_ext" (Json.quote s.documentExt),
      Json.member "include_prefix" (Json.quote s.includeRoot),
      Json.member "library_include" (Json.quote s.libraryInclude),
      Json.member "driver_include" (Json.quote s.driverInclude)]

end FractalShader.Settings
