import FractalShader.Proofs.Document.Codec

/-!
# The written form of a document

The same document can be described by many texts: members may come in any order or be
missing, a list may stand for the object, blanks do not matter, and every tag that the
catalog does not know is read as `unknown`.  What is written for a document is one of
these texts, and to read any of them and write it again leads there.

* `encode_inj` — different documents are written differently;
* `recode` — a text, read and written again; `recode_eq_recode_iff` says that it tells
  apart exactly the texts that describe different documents, `recode_eq_self_iff` that
  it leaves alone exactly what was written for a document;
* `encode_canonical` — the laws of the two directions together.
-/

namespace FractalShader.Document

open FractalShader.Json

variable {d d' : Document} {text text' : String}

/-- Different documents are written differently, byte for byte. -/
theorem encode_inj : d.encode.toUTF8 = d'.encode.toUTF8 ↔ d = d' := by
  refine ⟨fun h => ?_, fun h => h ▸ rfl⟩
  have htext : d.encode = d'.encode := String.toByteArray_inj.mp h
  have hread := d.decode_encode
  rw [htext, d'.decode_encode] at hread
  exact (Except.ok.inj hread).symm

/-! ## Reading and writing again -/

/-- The text that is written for the document that `text` describes. -/
def recode (text : String) : Except Fault String := (decode text).map encode

theorem recode_of_decode (h : decode text = .ok d) : recode text = .ok d.encode := by
  rw [recode, h, Except.map]

/-- What is written for a document is left as it is. -/
theorem recode_encode (d : Document) : recode d.encode = .ok d.encode :=
  recode_of_decode d.decode_encode

/-- A text is left as it is exactly when it was written for a document. -/
theorem recode_eq_self_iff : recode text = .ok text ↔ ∃ d : Document, text = d.encode := by
  constructor
  · intro h
    cases hd : decode text with
    | error fault =>
      rw [recode, hd] at h
      exact absurd h (by simp [Except.map])
    | ok d =>
      rw [recode_of_decode hd] at h
      exact ⟨d, (Except.ok.inj h).symm⟩
  · rintro ⟨d, rfl⟩
    exact d.recode_encode

/-- Two texts are written again in the same way exactly when they describe the same document. -/
theorem recode_eq_recode_iff (h : decode text = .ok d) (h' : decode text' = .ok d') :
    recode text = recode text' ↔ d = d' := by
  rw [recode_of_decode h, recode_of_decode h', Except.ok.injEq, ← encode_inj]
  exact String.toByteArray_inj.symm

/-- **Documents are written in one way.**  Every document, of any length and with unknown kinds
anywhere, is read as it was written and survives being given any name; different documents are
written in different bytes.  And whatever text describes a document, what is written for that
document describes it too, is what any other text for it is written as, and is written again
byte for byte. -/
theorem encode_canonical (d : Document) :
    decode d.encode = .ok d ∧ (∀ name, ofConfig (d.toConfig name) = d) ∧
      (∀ d' : Document, d.encode.toUTF8 = d'.encode.toUTF8 ↔ d = d') ∧
      ∀ text, decode text = .ok d → ∃ written, recode text = .ok written ∧
        decode written = .ok d ∧ recode written = .ok written ∧
        ∀ text' d', decode text' = .ok d' → (recode text' = .ok written ↔ d' = d) := by
  refine ⟨d.decode_encode, d.ofConfig_toConfig, fun _ => encode_inj, fun text h => ?_⟩
  refine ⟨d.encode, recode_of_decode h, d.decode_encode, d.recode_encode, fun text' d' h' => ?_⟩
  rw [← recode_eq_recode_iff h' h, recode_of_decode h]

/-! ## One of the other texts -/

/-- A text with its members in another order, without blanks, and with tags that the catalog does
not know. -/
def scrambled : String := "\x7b\"lastSDF\":\"Blob\",\"fractalConfig\":[\"BoxFold\",\"Twist\"]\x7d"

theorem decode_scrambled : decode scrambled = .ok ⟨[.boxFold, .unknown], .unknown⟩ := by
  have htags : readTags "[\"BoxFold\",\"Twist\"]\x7d".toList
      = .ok (["BoxFold", "Twist"], ['\x7d']) := by
    have hlast : readTag "\"Twist\"]\x7d".toList = .ok ("Twist", "]\x7d".toList) :=
      readTag_quote rfl
    show readTagEntries true (quote "BoxFold" ++ ",\"Twist\"]\x7d".toList) = _
    rw [readTagEntries_more rfl (readTag_quote rfl), readTagEntries_more rfl hlast,
      readTagEntries_done rfl]
    rfl
  have hterminal : readMember schema "lastSDF" default
      (quote "Blob" ++ ",\"fractalConfig\":[\"BoxFold\",\"Twist\"]\x7d".toList)
        = .ok (⟨[], .unknown⟩, ",\"fractalConfig\":[\"BoxFold\",\"Twist\"]\x7d".toList) := by
    show (readTag _).map _ = _
    rw [readTag_quote rfl]
    rfl
  have hchain : readMember schema "fractalConfig" ⟨[], .unknown⟩
      "[\"BoxFold\",\"Twist\"]\x7d".toList
        = .ok (⟨[.boxFold, .unknown], .unknown⟩, ['\x7d']) := by
    show (readTags _).map _ = _
    rw [htags]
    rfl
  rw [decode, readAll_eq_ok_iff]
  refine ⟨[], ?_, rfl⟩
  show readMembers schema true [] default (quote "lastSDF" ++ ':' :: (quote "Blob" ++ _)) = _
  rw [readMembers_step rfl (by decide) rfl (readKey_quote _ _) rfl (readColon_colon _) hterminal,
    readMembers_step rfl (by decide) rfl (readKey_quote "fractalConfig" _) rfl
      (readColon_colon _) hchain,
    readMembers_closing rfl]

/-- The scrambled text is written again as another text for its document. -/
theorem encode_canonical_scrambled :
    decode scrambled = .ok ⟨[.boxFold, .unknown], .unknown⟩ ∧ ∃ written,
      recode scrambled = .ok written ∧ decode written = .ok ⟨[.boxFold, .unknown], .unknown⟩ ∧
        recode written = .ok written ∧ written ≠ scrambled := by
  obtain ⟨written, hwritten, hread, hagain, -⟩ :=
    (encode_canonical _).2.2.2 scrambled decode_scrambled
  refine ⟨decode_scrambled, written, hwritten, hread, hagain, ?_⟩
  rintro rfl
  have hsame := Except.ok.inj ((recode_of_decode decode_scrambled).symm.trans hwritten)
  exact absurd hsame (by decide)

end FractalShader.Document
