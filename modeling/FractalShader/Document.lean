import FractalShader.Config
import FractalShader.Json.Printer
import FractalShader.Json.Record

/-!
# Description documents

The part of a preset that is read back: its fold chain and its distance
function, as a JSON object.  The name of the preset is not in the document; it
is in the name of the file.

* `ofConfig_toConfig` — a document survives being given a name;
* `toConfig_ofConfig` — a configuration is its document under its name.
-/

namespace FractalShader

/-- What a description document says. -/
structure Document where
  operations : List FoldKind
  terminal : SdfKind
  deriving DecidableEq

namespace Document

/-- A document that says nothing: no folds, and the distance function of a fresh preset. -/
instance : Inhabited Document := ⟨⟨[], default⟩⟩

def ofConfig (c : Config) : Document := ⟨c.operations, c.terminal⟩

/-- The configuration that the document describes under a name. -/
def toConfig (d : Document) (name : String) : Config := ⟨name, d.operations, d.terminal⟩

theorem ofConfig_toConfig (d : Document) (name : String) : ofConfig (d.toConfig name) = d := rfl

theorem toConfig_ofConfig (c : Config) : (ofConfig c).toConfig c.name = c := rfl

/-! ## Reading and writing -/

/-- The members of a document; other members are passed over. -/
def schema : Json.Schema Document where
  title := "PresetDocument"
  fields :=
    [.of "fractalConfig" Json.readTags
        (fun d tags => { d with operations := tags.map FoldKind.ofTag }) Json.readTags_shorter,
      .of "lastSDF" Json.readTag
        (fun d tag => { d with terminal := SdfKind.ofTag tag }) Json.readTag_shorter]
  closed := false

/-- Read a document; a member that is missing says what the empty document says. -/
def decode (text : String) : Except Json.Fault Document :=
  Json.readAll (Json.readRecord schema default) text.toList

/-- Write a document, with one entry on each line. -/
def encode (d : Document) : String :=
  String.ofList <| Json.spread '\x7b' '\x7d' 0
    [Json.spreadMember "fractalConfig"
        (Json.spread '[' ']' 1 (d.operations.map fun k => Json.quote k.tag)),
      Json.spreadMember "lastSDF" (Json.quote d.terminal.tag)]

end Document

end FractalShader
