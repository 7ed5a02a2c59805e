import FractalShader.Proofs.Document.Codec
import FractalShader.Proofs.Fragment.Lenient
import FractalShader.Proofs.Store.Effects

/-!
# Stored presets

A preset is stored when its three files hold what its configuration says they
should.  What is stored can be read again.

* `Stored` — the three files of a configuration are as its publication leaves
  them;
* `Stored.readDocument`, `Stored.load` — a stored configuration is read back;
* `Stored.driver_content`, `Stored.sdf_content`, `Stored.document_content` — what
  the files hold;
* `PresetWritten.stored` — a publication stores what it was given;
* `Stored.unchanged_of_regenerate`, `Stored.unchanged_of_publish` — to write a
  stored preset again is to change nothing.
-/

namespace FractalShader

open FractalShader.Action FractalShader.Disk

/-! ## Texts and files -/

/-- Text that is written is read as it was. -/
theorem fromUTF8?_toUTF8 (text : String) : String.fromUTF8? text.toUTF8 = some text := by
  rw [String.fromUTF8?, dif_pos (show text.toUTF8.IsValidUTF8 from text.isValidUTF8)]
  rfl

namespace Disk

/-- A file that holds a text is read as that text. -/
theorem readText_of_readFile {d : Disk} {p : Path} {text : String}
    (h : d.readFile p = .ok text.toUTF8) : d.readText p = .ok text := by
  rw [Disk.readText, h]
  simp only [fromUTF8?_toUTF8]

/-- A file is read as a text when its content is that text. -/
theorem readText_eq_ok_iff {d : Disk} {p : Path} {text : String} : d.readText p = .ok text ↔
    ∃ content, d.readFile p = .ok content ∧ String.fromUTF8? content = some text := by
  unfold readText
  cases d.readFile p with
  | error e => simp
  | ok content => cases hu : String.fromUTF8? content <;> simp [hu]

theorem readFile_of_readText {d : Disk} {p : Path} {text : String} (h : d.readText p = .ok text) :
    ∃ content, d.readFile p = .ok content := by
  obtain ⟨content, hc, -⟩ := readText_eq_ok_iff.mp h
  exact ⟨content, hc⟩

/-- The entry `file` of the directory `p`, whose place is `dir`, is a file of this text. -/
structure Holds (d : Disk) (p : Path) (dir : Place) (file text : String) : Prop where
  fits : p.entryFault? file = none
  content : d.node? (file :: dir) = some (.file text.toUTF8)

variable {d d' : Disk} {p : Path} {dir : Place} {file text : String}

theorem Holds.replaceable (h : d.Holds p dir file text) : d.Replaceable p dir file :=
  ⟨h.fits, by rw [h.content]; simp⟩

theorem Holds.readFile (h : d.Holds p dir file text) (hd : d.directoryAt p = .ok dir)
    (hf : IsEntryName file) : d.readFile (p.join file) = .ok text.toUTF8 :=
  (readFile_join_eq_ok_iff hd hf).mpr ⟨h.fits, h.content⟩

theorem Holds.readText (h : d.Holds p dir file text) (hd : d.directoryAt p = .ok dir)
    (hf : IsEntryName file) : d.readText (p.join file) = .ok text :=
  readText_of_readFile (h.readFile hd hf)

theorem Holds.exists? (h : d.Holds p dir file text) (hd : d.directoryAt p = .ok dir)
    (hf : IsEntryName file) : d.exists? (p.join file) = .ok true :=
  (exists?_join_eq_ok_iff hd hf).mpr ⟨h.fits, by rw [h.content]; rfl⟩

end Disk

namespace Store

variable {s : Store} {d d' : Disk} {dir : Place} {name : String}

/-! ## Reading -/

/-- When a document is read: it can be named, it is there, and it says what was read. -/
theorem readDocument_yields_iff {c : Config} : (s.readDocument name).Yields d c d' ↔
    PresetName.IsValid name ∧ (∃ text document, d.readText (s.documentPath name) = .ok text ∧
      Document.decode text = .ok document ∧ c = document.toConfig name) ∧ d' = d := by
  constructor
  · intro h
    rw [readDocument, yields_bind] at h
    obtain ⟨paths, d₁, hpaths, h⟩ := h
    rw [yields_of, paths_eq_ok_iff] at hpaths
    obtain ⟨⟨hv, rfl⟩, rfl⟩ := hpaths
    rw [yields_bind] at h
    obtain ⟨r, d₂, hlook, h⟩ := h
    obtain ⟨rfl, rfl⟩ := yields_look.mp hlook
    split at h
    · simp [malformed, yields_bind] at h
    · exact absurd h yields_refuse
    · next text htext =>
      split at h
      · simp [malformed, yields_bind] at h
      · next document hdecode =>
        simp only [yields_bind, yields_emit, yields_pure] at h
        obtain ⟨_, _, rfl, rfl, rfl⟩ := h
        exact ⟨hv, ⟨text, document, htext, hdecode, rfl⟩, rfl⟩
  · rintro ⟨hv, ⟨text, document, htext, hdecode, rfl⟩, rfl⟩
    have htext' : d'.readText (s.artifacts name).document = .ok text := htext
    rw [readDocument, yields_bind]
    refine ⟨s.artifacts name, d', yields_of.mpr ⟨s.paths_of_isValid hv, rfl⟩, ?_⟩
    rw [yields_bind]
    refine ⟨.ok text, d', yields_look.mpr ⟨htext'.symm, rfl⟩, ?_⟩
    simp only [hdecode, yields_bind]
    exact ⟨(), d', yields_emit.mpr rfl, yields_pure.mpr ⟨rfl, rfl⟩⟩

/-- What a document says depends on what is found under its path. -/
theorem readDocument_yields_congr {c : Config}
    (hfind : d'.find (s.documentPath name) = d.find (s.documentPath name))
    (h : (s.readDocument name).Yields d c d) : (s.readDocument name).Yields d' c d' := by
  obtain ⟨hv, ⟨text, document, htext, hdecode, hc⟩, -⟩ := readDocument_yields_iff.mp h
  refine readDocument_yields_iff.mpr ⟨hv, ⟨text, document, ?_, hdecode, hc⟩, rfl⟩
  rw [readText, readFile, hfind]
  exact htext

/-- A document that is read is a file. -/
theorem readFile_of_readDocument {c : Config} (h : (s.readDocument name).Yields d c d') :
    ∃ content, d.readFile (s.documentPath name) = .ok content := by
  obtain ⟨-, ⟨text, -, htext, -, -⟩, -⟩ := readDocument_yields_iff.mp h
  exact readFile_of_readText htext

/-- And without slashes in the extensions, that file is in the store's directory. -/
theorem readDocument_content (hs : s.settings.SlashFree) {c : Config}
    (h : (s.readDocument name).Yields d c d') : ∃ dir content,
      d.directoryAt s.root = .ok dir ∧ d.readFile (s.documentPath name) = .ok content := by
  have hv := (readDocument_yields_iff.mp h).1
  obtain ⟨content, hcontent⟩ := readFile_of_readDocument h
  obtain ⟨x, hfind⟩ := find_of_readFile hcontent
  obtain ⟨dir, hd⟩ := directoryAt_of_find_join (isEntryName_documentFile hs hv) hfind
  exact ⟨dir, content, hd, hcontent⟩

/-- A document that cannot be decoded is reported with the fault in its text. -/
theorem readDocument_fails_of_decode {text : String} {fault : Json.Fault}
    (hv : PresetName.IsValid name) (htext : d.readText (s.documentPath name) = .ok text)
    (hdecode : Document.decode text = .error fault) :
    (s.readDocument name).Fails d
      (.malformedDocument (s.documentPath name).text (fault.message text.toList)) d := by
  have hpaths : (of (s.paths name)).Yields d (s.artifacts name) d :=
    yields_of.mpr ⟨s.paths_of_isValid hv, rfl⟩
  have hlook : (look (·.readText (s.artifacts name).document)).Yields d (.ok text) d :=
    yields_look.mpr ⟨htext.symm, rfl⟩
  refine fails_bind.mpr (.inr ⟨_, _, hpaths, fails_bind.mpr (.inr ⟨_, _, hlook, ?_⟩)⟩)
  simp [hdecode, malformed, fails_bind, artifacts]

/-- A preset whose driver is there and whose document is read is loaded. -/
theorem load_yields_some {c : Config} (hdriver : d.exists? (s.artifacts name).driver = .ok true)
    (h : (s.readDocument name).Yields d c d) : (s.load name).Yields d (some c) d := by
  have hv := (readDocument_yields_iff.mp h).1
  have htry : (s.tryLoad name).Yields d c d := by
    rw [tryLoad, yields_bind]
    refine ⟨s.artifacts name, d, yields_of.mpr ⟨s.paths_of_isValid hv, rfl⟩, ?_⟩
    rw [yields_bind]
    refine ⟨true, d, yields_ask.mpr ⟨hdriver, rfl⟩, ?_⟩
    rw [if_pos rfl]
    exact h
  rw [load, yields_bind]
  refine ⟨.ok c, d, yields_attempt.mpr htry, ?_⟩
  exact yields_pure.mpr ⟨rfl, rfl⟩

/-- What is loaded has the name under which it was looked for. -/
theorem name_of_load {c : Config} (h : (s.load name).Yields d (some c) d') : c.name = name := by
  rw [load, yields_bind] at h
  obtain ⟨r, d₁, htry, h⟩ := h
  rw [yields_attempt] at htry
  split at h
  · obtain ⟨hc, -⟩ := yields_pure.mp h
    obtain rfl := Option.some.inj hc
    rw [tryLoad] at htry
    obtain ⟨paths, d₂, -, htry⟩ := yields_bind.mp htry
    obtain ⟨present, d₃, -, htry⟩ := yields_bind.mp htry
    cases present with
    | true =>
      obtain ⟨-, ⟨-, document, -, -, rfl⟩, -⟩ := readDocument_yields_iff.mp htry
      rfl
    | false => exact absurd htry yields_refuse
  · split at h
    · obtain ⟨_, _, -, h⟩ := yields_bind.mp h
      exact absurd (yields_pure.mp h).1 (by simp)
    · exact absurd h yields_refuse

/-- Without its driver a preset is not there, whatever its document says. -/
theorem load_yields_none (hv : PresetName.IsValid name)
    (hdriver : d.exists? (s.artifacts name).driver = .ok false) :
    (s.load name).Yields d none d := by
  have htry : (s.tryLoad name).Fails d (.notFound name) d := by
    rw [tryLoad, fails_bind]
    refine .inr ⟨s.artifacts name, d, yields_of.mpr ⟨s.paths_of_isValid hv, rfl⟩, ?_⟩
    rw [fails_bind]
    refine .inr ⟨false, d, yields_ask.mpr ⟨hdriver, rfl⟩, ?_⟩
    exact fails_refuse.mpr ⟨rfl, rfl⟩
  rw [load, yields_bind]
  refine ⟨.error (.notFound name), d, yields_attempt.mpr htry, ?_⟩
  exact yields_bind.mpr ⟨(), d, yields_emit.mpr rfl, yields_pure.mpr ⟨rfl, rfl⟩⟩

/-- That the disk cannot tell whether the driver is there is passed on. -/
theorem load_fails {cause : OsError} (hv : PresetName.IsValid name)
    (hdriver : d.exists? (s.artifacts name).driver = .error cause) :
    (s.load name).Fails d (.io (s.artifacts name).driver.text cause) d := by
  have htry : (s.tryLoad name).Fails d (.io (s.artifacts name).driver.text cause) d := by
    rw [tryLoad, fails_bind]
    refine .inr ⟨s.artifacts name, d, yields_of.mpr ⟨s.paths_of_isValid hv, rfl⟩, ?_⟩
    exact fails_bind.mpr (.inl (fails_ask.mpr ⟨⟨cause, hdriver, rfl⟩, rfl⟩))
  rw [load, fails_bind]
  refine .inr ⟨.error _, d, yields_attempt.mpr htry, ?_⟩
  exact fails_refuse.mpr ⟨rfl, rfl⟩

/-! ## Fragments -/

/-- Both fragments of the preset `name` stand in the directory `dir` as they were generated. -/
structure HoldsFragments (s : Store) (d : Disk) (dir : Place) (name : String) (g : Generated) :
    Prop where
  driver : d.node? (s.driverFile name :: dir) = some (.file g.driver.toUTF8)
  sdf : d.node? (s.sdfFile name :: dir) = some (.file g.sdf.toUTF8)

/-- To write fragments that stand there already is to change nothing. -/
theorem HoldsFragments.unchanged {g : Generated} (h : s.HoldsFragments d dir name g)
    (hp : d.Patched dir
      [(s.sdfFile name, some g.sdf.toUTF8), (s.driverFile name, some g.driver.toUTF8)] d')
    (q : Place) : d'.node? q = d.node? q := by
  apply hp.node?_eq_of_same
  intro f k hl
  have hmem := mem_of_lookup hl
  simp only [List.mem_cons, Prod.mk.injEq, List.not_mem_nil, or_false] at hmem
  rcases hmem with ⟨rfl, rfl⟩ | ⟨rfl, rfl⟩
  · exact h.sdf
  · exact h.driver

/-! ## Stored presets -/

/-- The files of the configuration `c`, in the directory `dir` of the store, are as a publication
leaves them; `g` are its fragments. -/
structure Stored (s : Store) (d : Disk) (dir : Place) (c : Config) (g : Generated) : Prop where
  valid : PresetName.IsValid c.name
  known : c.hasUnknown = false
  generated : ∀ strict, Fragment.generate c s.settings strict = .ok g
  root : d.directoryAt s.root = .ok dir
  driver : d.Holds s.root dir (s.driverFile c.name) g.driver
  sdf : d.Holds s.root dir (s.sdfFile c.name) g.sdf
  document : d.Holds s.root dir (s.documentFile c.name) (Document.ofConfig c).encode

namespace Stored

variable {c : Config} {g : Generated}

theorem writable (h : s.Stored d dir c g) : s.Writable d dir c.name :=
  ⟨h.driver.replaceable, h.sdf.replaceable, h.document.replaceable⟩

/-- Each of the three files is there. -/
theorem holds (h : s.Stored d dir c g) : ∀ f ∈ s.files c.name, ∃ text, d.Holds s.root dir f text := by
  intro f hf
  simp only [files, List.mem_cons, List.not_mem_nil, or_false] at hf
  rcases hf with rfl | rfl | rfl
  · exact ⟨_, h.driver⟩
  · exact ⟨_, h.sdf⟩
  · exact ⟨_, h.document⟩

theorem driver_content (h : s.Stored d dir c g) (hs : s.settings.SlashFree) :
    d.readFile (s.artifacts c.name).driver = .ok g.driver.toUTF8 :=
  h.driver.readFile h.root (isEntryName_driverFile hs h.valid)

theorem sdf_content (h : s.Stored d dir c g) (hs : s.settings.SlashFree) :
    d.readFile (s.artifacts c.name).sdf = .ok g.sdf.toUTF8 :=
  h.sdf.readFile h.root (isEntryName_sdfFile hs h.valid)

theorem document_content (h : s.Stored d dir c g) (hs : s.settings.SlashFree) :
    d.readFile (s.artifacts c.name).document = .ok (Document.ofConfig c).encode.toUTF8 :=
  h.document.readFile h.root (isEntryName_documentFile hs h.valid)

/-- The document of a stored configuration says that configuration. -/
theorem readDocument (h : s.Stored d dir c g) (hs : s.settings.SlashFree) :
    (s.readDocument c.name).Yields d c d := by
  refine readDocument_yields_iff.mpr ⟨h.valid, ⟨(Document.ofConfig c).encode, Document.ofConfig c,
    ?_, Document.decode_encode _, (Document.toConfig_ofConfig c).symm⟩, rfl⟩
  exact h.document.readText h.root (isEntryName_documentFile hs h.valid)

theorem load (h : s.Stored d dir c g) (hs : s.settings.SlashFree) :
    (s.load c.name).Yields d (some c) d :=
  load_yields_some (h.driver.exists? h.root (isEntryName_driverFile hs h.valid))
    (h.readDocument hs)

theorem holdsFragments (h : s.Stored d dir c g) : s.HoldsFragments d dir c.name g :=
  ⟨h.driver.content, h.sdf.content⟩

/-- Publishing a stored configuration again changes nothing. -/
theorem presetWritten_again {dir' : Place} (h : s.Stored d dir c g)
    (hw : s.PresetWritten d dir' c g d') (q : Place) : d'.node? q = d.node? q := by
  obtain ⟨rfl, -, hpatched⟩ := hw.of_directoryAt h.root
  apply hpatched.node?_eq_of_same
  intro f k hl
  have hmem := mem_of_lookup hl
  simp only [List.mem_cons, Prod.mk.injEq, List.not_mem_nil, or_false] at hmem
  rcases hmem with ⟨rfl, rfl⟩ | ⟨rfl, rfl⟩ | ⟨rfl, rfl⟩
  · exact h.document.content
  · exact h.sdf.content
  · exact h.driver.content

/-- A stored preset that is regenerated or published again stays as it is, byte for byte. -/
theorem unchanged_of_regenerate (h : s.Stored d dir c g) (hs : s.settings.SlashFree)
    {strict : Bool} {p : Published} (hy : (s.regenerate c.name strict).Yields d p d')
    (q : Place) : d'.node? q = d.node? q := by
  obtain ⟨c', dir', hread, hg, hw⟩ := regenerate_yields hs hy
  obtain ⟨rfl, -⟩ := Yields.unique (h.readDocument hs) hread
  rw [h.generated strict] at hg
  obtain rfl := Except.ok.inj hg
  obtain ⟨rfl, -, -, hpatched⟩ := hw.of_directoryAt h.root
  exact h.holdsFragments.unchanged hpatched q

theorem unchanged_of_publish (h : s.Stored d dir c g) (hs : s.settings.SlashFree)
    {strict : Bool} {p : Published} (hy : (s.publish c strict).Yields d p d') (q : Place) :
    d'.node? q = d.node? q := by
  obtain ⟨-, hg, dir', hw⟩ := publish_yields hs hy
  rw [h.generated strict] at hg
  obtain rfl := Except.ok.inj hg
  exact h.presetWritten_again hw q

end Stored

/-- **A publication stores what it was given.** -/
theorem PresetWritten.stored {c : Config} {g : Generated} {strict : Bool}
    (h : s.PresetWritten d dir c g d')
    (hg : Fragment.generate c s.settings strict = .ok g) : s.Stored d' dir c g where
  valid := h.valid
  known := h.known
  generated strict' := by
    rw [Fragment.generate_of_known h.known, ← Fragment.generate_of_known h.known _ strict, hg]
  root := h.patched.directoryAt h.root
  driver := by
    refine ⟨h.writable.driver.fits, h.patched.entry_of_written ?_⟩
    rw [lookup_cons_patch, if_neg (s.driverFile_ne_documentFile c.name), lookup_cons_patch,
      if_neg (s.driverFile_ne_sdfFile c.name), lookup_cons_patch, if_pos rfl]
  sdf := by
    refine ⟨h.writable.sdf.fits, h.patched.entry_of_written ?_⟩
    rw [lookup_cons_patch, if_neg (s.sdfFile_ne_documentFile c.name), lookup_cons_patch,
      if_pos rfl]
  document := by
    refine ⟨h.writable.document.fits, h.patched.entry_of_written ?_⟩
    rw [lookup_cons_patch, if_pos rfl]

end Store

end FractalShader
