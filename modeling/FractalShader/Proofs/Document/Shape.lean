import FractalShader.Proofs.Document.Members
import FractalShader.Proofs.Settings.Codec

/-!
# The shapes of documents and settings

A text that is no document or no settings is refused, whatever else it is.  The shapes are
wider than those that are written: both records may also be lists, which give the first
fields by position, and a tag may be an object whose only member has the tag for its name
and a null for its value.

* `decodes_iff_shaped` — the texts that are documents, and those that are settings;
* `lists_are_read` — not all of them are objects.
-/

namespace FractalShader

open Json

namespace Document

/-- The values that the fields of a document may have. -/
inductive Value : String → List Char → Prop where
  | chain {v : List Char} {tags : List String} (h : IsTags v tags) : Value "fractalConfig" v
  | terminal {v : List Char} {tag : String} (h : IsTag v tag) : Value "lastSDF" v

theorem makes_schema : Makes schema.names Form Value := by
  intro name _ v d
  constructor
  · rintro ⟨_, h⟩
    cases h with
    | chain h => exact .chain h
    | terminal h => exact .terminal h
  · intro h
    cases h with
    | chain h => exact ⟨_, .chain h⟩
    | terminal h => exact ⟨_, .terminal h⟩

end Document

/-- **A text of another shape is refused.**  A text is a document when it is an object that gives
each of its two fields once at most, the chain as a list of tags and the distance function as a
tag, and all other members have names; or when it is a list of a chain and a tag, of a chain alone
or of nothing.  A text is settings when it is an object in which each member is one of five fields,
given once and with a string for its value, or a list of five strings at most. -/
theorem decodes_iff_shaped (text : String) :
    ((∃ d, Document.decode text = .ok d) ↔
      Shaped ["fractalConfig", "lastSDF"] false Document.Value text.toList) ∧
    ((∃ s, Settings.decode text = .ok s) ↔
      Shaped ["fragment_ext", "document_ext", "include_prefix", "library_include",
        "driver_include"] true (fun _ v => ∃ value, Spells v value) text.toList) :=
  ⟨exists_readAll_iff Document.reads_schema Document.makes_schema default text.toList,
    exists_readAll_iff Settings.reads_schema Settings.makes_schema default text.toList⟩

/-- The empty list is a document, and it is settings: it gives no field.  So it is wrong that only
objects are read. -/
theorem lists_are_read : ¬ ∀ text : String,
    ((∃ d, Document.decode text = .ok d) → ∃ ms, ObjectText ms text.toList ∧
      (∀ v, (some "fractalConfig", v) ∈ ms → ∃ vs es, v = '[' :: (es ++ [']']) ∧
        Entries Item vs es ∧ ∀ u ∈ vs, ∃ tag, Spells u tag) ∧
      ∀ v, (some "lastSDF", v) ∈ ms → ∃ tag, Spells v tag) ∧
    ((∃ s, Settings.decode text = .ok s) → ∃ ms, ObjectText ms text.toList ∧
      ∀ m ∈ ms, (∃ f, m.1 = some (Settings.Setting.key f)) ∧ ∃ value, Spells m.2 value) := by
  intro h
  have hlist : ListText [] "[]".toList :=
    ⟨by simp, [], [], [], blanks_nil, .none blanks_nil, blanks_nil, rfl⟩
  have hdecode : Document.decode "[]" = .ok default :=
    (readAll_list_iff Document.reads_schema hlist).mpr .done
  obtain ⟨ms, hobject, -⟩ := (h "[]").1 ⟨_, hdecode⟩
  obtain ⟨cs, hcs⟩ := hobject.skipBlank
  exact absurd (List.cons.inj hcs).1 (by decide)

end FractalShader
