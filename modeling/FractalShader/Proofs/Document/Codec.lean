import FractalShader.Document
import FractalShader.Proofs.Json.Reading

/-!
# Documents are read as they were written

* `decode_encode` — reading a written document gives it back.
-/

namespace FractalShader.Document

open FractalShader.Json

theorem map_ofTag_tag (ks : List FoldKind) : (ks.map FoldKind.tag).map FoldKind.ofTag = ks := by
  rw [List.map_map]
  exact (List.map_congr_left fun k _ => FoldKind.ofTag_tag k).trans (List.map_id ks)

/-- The chain of a document, as a value between other members. -/
theorem readMember_chain (d : Document) (ks : List FoldKind) (rest : List Char) :
    readMember schema "fractalConfig" d
        (' ' :: (spread '[' ']' 1 (ks.map fun k => quote k.tag) ++ rest))
      = .ok ({ d with operations := ks }, rest) := by
  have hmap : (ks.map fun k => quote k.tag) = (ks.map FoldKind.tag).map quote := by
    rw [List.map_map]
    rfl
  have hblank : skipBlank (' ' :: (spread '[' ']' 1 (ks.map fun k => quote k.tag) ++ rest))
      = spread '[' ']' 1 ((ks.map FoldKind.tag).map quote) ++ rest := by
    rw [skipBlank_blank (by decide), ← hmap]
    cases ks with
    | nil => rfl
    | cons k ks => rw [List.map_cons, spread_cons, List.cons_append, skipBlank_cons (by decide)]
  show (readTags _).map _ = _
  rw [readTags_spread 1 (ks.map FoldKind.tag) hblank]
  simp only [Except.map, map_ofTag_tag]

/-- The distance function of a document, as a value between other members. -/
theorem readMember_terminal (d : Document) (k : SdfKind) (rest : List Char) :
    readMember schema "lastSDF" d (' ' :: (quote k.tag ++ rest))
      = .ok ({ d with terminal := k }, rest) := by
  have hblank : skipBlank (' ' :: (quote k.tag ++ rest)) = quote k.tag ++ rest := by
    rw [skipBlank_blank (by decide), skipBlank_quote]
  show (readTag _).map _ = _
  rw [readTag_quote hblank]
  simp only [Except.map, SdfKind.ofTag_tag]

/-- **Reading a written document gives it back.** -/
theorem decode_encode (d : Document) : decode d.encode = .ok d := by
  have htext : d.encode.toList = '\x7b' :: ([] ++ (newLine 1 ++ (spreadMember "fractalConfig"
      (spread '[' ']' 1 (d.operations.map fun k => quote k.tag)) ++ ([','] ++ (newLine 1
        ++ (spreadMember "lastSDF" (quote d.terminal.tag) ++ (newLine 0 ++ ['\x7d']))))))) := by
    rw [encode, String.toList_ofList, spread_cons]
    simp [laterEntries]
  have hend : skipBlank (newLine 0 ++ ['\x7d']) = ['\x7d'] := by
    rw [skipBlank_newLine, skipBlank_cons (by decide)]
  rw [decode, readAll_eq_ok_iff, htext]
  refine ⟨[], ?_, rfl⟩
  show readMembers schema true [] default _ = _
  have hfirst : ([] : List Char) = if true = true then [] else [','] := rfl
  have hlater : [','] = if false = true then [] else [','] := rfl
  rw [readMembers_spreadMember hfirst rfl (readMember_chain default d.operations _),
    readMembers_spreadMember hlater rfl (readMember_terminal _ d.terminal _),
    readMembers_closing hend]

end FractalShader.Document
