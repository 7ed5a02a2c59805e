import FractalShader.Proofs.Store.Overlap
import FractalShader.Proofs.Store.Steps

/-!
# Publications and their own documents

A publication writes the document of its preset last.  When it fails before that,
the document is as it was, unless the path of a fragment leads to it; where no
extension holds a slash, none does.

* `FragmentsApart` — no fragment of a preset is reached at the place of its
  document;
* `preserves_spares_writeFragments` — then writing the fragments spares the
  document, whatever the result;
* `documentUntouched_of_publish_fails` — a publication that fails leaves its own
  document alone;
* `readDocument_of_publish` — one that succeeds is read back, whatever the
  extensions are.
-/

namespace FractalShader

open FractalShader.Action FractalShader.Disk

namespace Store

variable {s : Store} {d d' : Disk} {dir : Place} {file name : String} {p : Path} {c : Config}

/-! ## Steps that spare a place -/

theorem preserves_spares_removeIfPresent (h : d.locate p ≠ .ok (.entry dir file false)) :
    (removeIfPresent p).Preserves (d.Spares (file :: dir)) := by
  intro d₁ hd
  rcases disk_removeIfPresent_cases p d₁ with heq | ⟨dir', file', hl, hp⟩
  · rwa [heq]
  · exact hd.patch hl h hp

theorem preserves_spares_writeText (h : d.locate p ≠ .ok (.entry dir file false)) (text : String) :
    (writeText p text).Preserves (d.Spares (file :: dir)) := by
  intro d₁ hd
  rcases disk_writeText_cases p text d₁ with heq | ⟨dir', file', hl, hp⟩
  · rwa [heq]
  · exact hd.patch hl h hp

theorem preserves_spares_ensureRoot {q : Place} (hd : d.directoryAt s.root = .ok dir) :
    s.ensureRoot.Preserves (d.Spares q) := by
  intro d₁ h
  rw [disk_ensureRoot, rooted_of_directoryAt (directoryAt_keeps h.keeps hd)]
  exact h

/-! ## Fragments apart from their document -/

/-- Neither fragment of the preset `name` is reached at the place of its document. -/
structure FragmentsApart (s : Store) (d : Disk) (name : String) : Prop where
  driver : d.locate (s.artifacts name).driver ≠ d.locate (s.documentPath name)
  sdf : d.locate (s.artifacts name).sdf ≠ d.locate (s.documentPath name)

/-- Where a document is read, the directory of the store is there. -/
theorem directoryAt_of_locate_document {spot : Spot} (hv : PresetName.IsValid name)
    (hl : d.locate (s.documentPath name) = .ok spot) : ∃ dir, d.directoryAt s.root = .ok dir := by
  obtain ⟨first, rest, -, hpieces, -⟩ := pieces_dot hv.isStem_conf s.settings.documentExt
  refine directoryAt_of_locate_relative (head?_dot_ne_slash hv.isStem_conf _) ?_ hl
  rw [hpieces]
  exact List.cons_ne_nil first rest

/-- Without slashes in the extensions, files of different names are at different places. -/
theorem locate_join_ne (hd : d.directoryAt s.root = .ok dir) {f g : String} (hf : IsEntryName f)
    (hg : IsEntryName g) (hne : f ≠ g) {spot : Spot} (hl : d.locate (s.root.join g) = .ok spot) :
    d.locate (s.root.join f) ≠ d.locate (s.root.join g) := by
  intro heq
  rw [locate_join hd hf (fault?_of_locate (heq.trans hl)),
    locate_join hd hg (fault?_of_locate hl)] at heq
  exact hne (Spot.entry.inj (Except.ok.inj heq)).2.1

theorem fragmentsApart_of_slashFree (hs : s.settings.SlashFree) (hv : PresetName.IsValid name)
    {spot : Spot} (hl : d.locate (s.documentPath name) = .ok spot) : s.FragmentsApart d name := by
  obtain ⟨dir, hd⟩ := directoryAt_of_locate_document hv hl
  have hdocument := isEntryName_documentFile hs hv
  exact
    { driver := locate_join_ne hd (isEntryName_driverFile hs hv) hdocument
        (s.driverFile_ne_documentFile name) hl
      sdf := locate_join_ne hd (isEntryName_sdfFile hs hv) hdocument
        (s.sdfFile_ne_documentFile name) hl }

/-- Writing fragments spares a document that is apart from them. -/
theorem preserves_spares_writeFragments (hapart : s.FragmentsApart d name)
    (hl : d.locate (s.documentPath name) = .ok (.entry dir file false)) (driver sdf : String) :
    (s.writeFragments name driver sdf).Preserves (d.Spares (file :: dir)) := by
  have hdriver := hapart.driver
  have hsdf := hapart.sdf
  rw [hl] at hdriver hsdf
  refine preserves_writeFragments fun hv => ?_
  obtain ⟨root, hroot⟩ := directoryAt_of_locate_document hv hl
  exact
    { root := preserves_spares_ensureRoot hroot
      removeDriver := preserves_spares_removeIfPresent hdriver
      removeSdf := preserves_spares_removeIfPresent hsdf
      writeDriver := preserves_spares_writeText hdriver driver
      writeSdf := preserves_spares_writeText hsdf sdf }

/-! ## Publications that fail, and that succeed -/

theorem spares_of_publish_fails {strict : Bool} {e : PresetError} (hname : c.name = name)
    (hv : PresetName.IsValid name) (hapart : s.FragmentsApart d name)
    (hl : d.locate (s.documentPath name) = .ok (.entry dir file false))
    (h : (s.publish c strict).Fails d e d') : d.Spares (file :: dir) d' := by
  subst hname
  rcases publish_fails_cases h with rfl | ⟨g, hwrite⟩ | ⟨g, paths, d₁, -, hwrite, hsave⟩
  · exact Spares.refl _ _
  · rw [← hwrite.2]
    exact preserves_spares_writeFragments hapart hl g.driver g.sdf d (Spares.refl _ _)
  · have hspares : d.Spares (file :: dir) d₁ := by
      rw [← hwrite.2]
      exact preserves_spares_writeFragments hapart hl g.driver g.sdf d (Spares.refl _ _)
    obtain ⟨root, hroot⟩ := directoryAt_of_locate_document hv hl
    rcases disk_of_save_fails hsave with rfl | rfl
    · exact hspares
    · rwa [rooted_of_directoryAt (directoryAt_keeps hspares.keeps hroot)]

/-- **A publication that fails leaves the document of its own preset alone**, unless the path of a
fragment leads there. -/
theorem documentUntouched_of_publish_fails {strict : Bool} {e : PresetError} {content : ByteArray}
    (hname : c.name = name) (hv : PresetName.IsValid name) (hapart : s.FragmentsApart d name)
    (hread : d.readFile (s.documentPath name) = .ok content)
    (h : (s.publish c strict).Fails d e d') : s.DocumentUntouched name d d' := by
  obtain ⟨dir, file, hl, -, -⟩ := readFile_eq_ok_iff.mp hread
  exact documentUntouched_of_content ((spares_of_publish_fails hname hv hapart hl h).readFile hl)

/-- What was saved is read. -/
theorem readDocument_of_save {p : Path} (h : (s.save c).Yields d p d') :
    (s.readDocument c.name).Yields d' c d' := by
  rw [save, yields_bind] at h
  obtain ⟨paths, d₀, hpaths, h⟩ := h
  rw [yields_of, paths_eq_ok_iff] at hpaths
  obtain ⟨⟨hv, rfl⟩, rfl⟩ := hpaths
  cases hknown : c.hasUnknown with
  | true =>
    simp only [hknown, if_true, yields_bind] at h
    obtain ⟨_, _, hr, -⟩ := h
    exact absurd hr yields_refuse
  | false =>
    simp only [hknown, Bool.false_eq_true, if_false, yields_bind, yields_emit, yields_pure] at h
    obtain ⟨_, d₁, -, _, d₂, hwrite, _, _, rfl, -, rfl⟩ := h
    rw [writeText, yields_request, whole] at hwrite
    split at hwrite
    · next hfile =>
      obtain rfl := (Prod.mk.inj hwrite).1
      have htext := readText_of_readFile (readFile_of_writeFile hfile)
      exact readDocument_yields_iff.mpr ⟨hv, ⟨_, _, htext,
        Document.decode_encode (Document.ofConfig c), (Document.toConfig_ofConfig c).symm⟩, rfl⟩
    · simp at hwrite

/-- What was published is read. -/
theorem readDocument_of_publish {strict : Bool} {p : Published}
    (h : (s.publish c strict).Yields d p d') : (s.readDocument c.name).Yields d' c d' := by
  unfold publish at h
  cases hknown : c.hasUnknown with
  | true =>
    simp only [hknown, if_true, yields_bind] at h
    obtain ⟨_, _, hr, -⟩ := h
    exact absurd hr yields_refuse
  | false =>
    simp only [hknown, Bool.false_eq_true, if_false, yields_bind, yields_emit, yields_pure] at h
    obtain ⟨_, _, -, _, _, -, _, d₁, hsave, _, _, rfl, -, rfl⟩ := h
    exact readDocument_of_save hsave

end Store

end FractalShader
