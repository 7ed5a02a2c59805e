import FractalShader.Document
import FractalShader.Proofs.Fragment.Lenient
import FractalShader.Proofs.Json.Reading

/-!
# No fragment is a document

A document starts, after blanks, with the bracket of an object or of a list.  A driver
starts with an include directive and a distance fragment with the type of its function,
whatever the settings and the configuration are.

* `Document.decode_of_head` — what starts with anything else is refused;
* `decode_driver`, `decode_sdfCode` — so is each fragment;
* `generate_undecodable` — and so is whatever is generated.
-/

namespace FractalShader

/-- A text that starts with neither a blank nor an opening bracket is no document. -/
theorem Document.decode_of_head {text : String} {c : Char} (h : text.toList.head? = some c)
    (hblank : Json.isBlank c = false) (hlist : c ≠ '[') (hobject : c ≠ '\x7b') :
    ∃ fault, Document.decode text = .error fault := by
  obtain ⟨rest, hrest⟩ := List.head?_eq_some_iff.mp h
  refine ⟨Json.wrongType "struct PresetDocument" (c :: rest), ?_⟩
  rw [Document.decode, hrest, Json.readAll, Json.readRecord, Json.skipBlank_cons hblank]
  simp [hlist, hobject, Document.schema]

namespace Fragment

/-- A driver starts with an include directive. -/
theorem decode_driver (settings : Settings) (name : String) :
    ∃ fault, Document.decode (driverCode settings name).text = .error fault := by
  apply Document.decode_of_head (c := '#') _ (by decide) (by decide) (by decide)
  rw [Code.text, String.toList_ofList, driverCode, Code.layout, includeLine]
  simp [Code.itemText, Code.indented]

/-- A distance fragment starts with a type. -/
theorem decode_sdfCode (statements : List String) (returned : String) :
    ∃ fault, Document.decode (sdfCode statements returned).text = .error fault := by
  apply Document.decode_of_head (c := 'f') _ (by decide) (by decide) (by decide)
  rw [Code.text, String.toList_ofList, sdfCode, List.append_assoc, List.cons_append, Code.layout]
  simp [Code.itemText, Code.indented]

/-- Whatever is generated has the driver of its name and some distance fragment. -/
theorem generate_texts {c : Config} {settings : Settings} {strict : Bool} {g : Generated}
    (h : generate c settings strict = .ok g) :
    g.driver = (driverCode settings c.name).text ∧
      ∃ statements returned, g.sdf = (sdfCode statements returned).text := by
  unfold generate sdf at h
  cases hchain : chain strict 0 c.operations with
  | error e =>
    rw [hchain] at h
    exact absurd h (by simp)
  | ok r =>
    obtain ⟨lines, warnings⟩ := r
    rw [hchain] at h
    cases hreturned : orSentinel strict .terminal c.terminal.returned? with
    | error e =>
      rw [hreturned] at h
      exact absurd h (by simp)
    | ok r =>
      obtain ⟨expr, last⟩ := r
      rw [hreturned] at h
      simp only [Except.ok.injEq] at h
      rw [← h]
      exact ⟨rfl, lines, expr, rfl⟩

/-- **Nothing that is generated can be read as a document.** -/
theorem generate_undecodable {c : Config} {settings : Settings} {strict : Bool} {g : Generated}
    (h : generate c settings strict = .ok g) :
    (∃ fault, Document.decode g.driver = .error fault) ∧
      ∃ fault, Document.decode g.sdf = .error fault := by
  obtain ⟨hdriver, statements, returned, hsdf⟩ := generate_texts h
  rw [hdriver, hsdf]
  exact ⟨decode_driver settings c.name, decode_sdfCode statements returned⟩

end Fragment

end FractalShader
