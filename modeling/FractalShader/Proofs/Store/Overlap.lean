import FractalShader.Proofs.Fragment.Undecodable
import FractalShader.Proofs.Store.Vacant

/-!
# Documents in the place of fragments

The check that is made before fragments are written compares names; it knows that
the driver of `nSDF` is the distance fragment of `n`, but not that with some
extensions a fragment of `n` has the file name of the document of another preset
`m`.  Then a publication of `n` that passes its checks writes over that document.
In every other case it leaves the document alone, whatever the extensions are.

* `Admitted` — a publication that passes its checks; any other changes nothing
  (`disk_publish_of_not_admitted`);
* `Tidy.publish_writes`, `Tidy.publish_stops` — the fragments that an admitted one
  leaves behind;
* `DocumentUntouched` — a document of which the content and what is read are the
  same;
* `Overwrites` — a publication that writes over the document of another preset;
* `documentUntouched_publish_iff` — exactly when a document is left alone;
* `publish_overwrites_document` — a publication that writes over one.
-/

namespace FractalShader.Store

open FractalShader.Action FractalShader.Disk

variable {s : Store} {d d' d₀ : Disk} {dir : Place} {name m : String} {fs : List String}
  {c : Config} {g : Generated}

/-! ## Checks -/

/-- The publication of `c` passes every check that it makes. -/
structure Admitted (s : Store) (d : Disk) (c : Config) : Prop where
  known : c.hasUnknown = false
  valid : PresetName.IsValid c.name
  separate : (s.checkCollision c.name).Yields d () d

/-- What is admitted can be generated. -/
theorem Admitted.generate (h : s.Admitted d c) :
    ∃ g, ∀ strict, Fragment.generate c s.settings strict = .ok g := by
  obtain ⟨ws, hg⟩ := Fragment.generate_lenient c s.settings
  exact ⟨_, fun strict => (Fragment.generate_of_known h.known s.settings strict).trans hg⟩

theorem disk_publish_of_not_admitted (hs : s.settings.SlashFree) (h : ¬ s.Admitted d c)
    (strict : Bool) : ((s.publish c strict).run d).disk = d := by
  rcases (s.publish c strict).yields_or_fails d with ⟨p, hy⟩ | ⟨e, hfail⟩
  · obtain ⟨-, -, dir, hw⟩ := publish_yields hs hy
    exact absurd ⟨hw.known, hw.valid, hw.separate⟩ h
  · cases hknown : c.hasUnknown with
    | false =>
      rcases publish_fails hs hfail with heq | ⟨hv, hcheck, -⟩
      · exact heq
      · exact absurd ⟨hknown, hv, hcheck⟩ h
    | true => exact (publish_fails_of_unknown hknown strict).2

/-! ## Fragments of an admitted publication -/

/-- In a tidy store, an admitted publication leaves both fragments behind, when the distance
fragment can be named. -/
theorem Tidy.publish_writes (h : s.Tidy d dir) (hs : s.settings.SlashFree) (hc : s.Admitted d c)
    {strict : Bool} (hg : Fragment.generate c s.settings strict = .ok g)
    (hfits : s.root.entryFault? (s.sdfFile c.name) = none) :
    ((s.publish c strict).run d).disk.node? (s.driverFile c.name :: dir)
        = some (.file g.driver.toUTF8) ∧
      ((s.publish c strict).run d).disk.node? (s.sdfFile c.name :: dir)
        = some (.file g.sdf.toUTF8) := by
  have hdriver := h.replaceable (entryFault?_driverFile hs hc.valid hfits)
  have hsdf := h.replaceable hfits
  rcases (s.writeFragments c.name g.driver g.sdf).yields_or_fails d with ⟨p, hy⟩ | ⟨e, hfail⟩
  · obtain ⟨-, dir', hw⟩ := writeFragments_yields hs hy
    obtain ⟨rfl, -, -, hpatched⟩ := hw.of_directoryAt h.root
    -- the document is written last, and it is another file
    have htouch := touches_save hs c ((s.writeFragments c.name g.driver g.sdf).run d).disk
    have hd := hpatched.directoryAt h.root
    rw [disk_publish_of_yields hc.known hg hy,
      htouch.node?_eq hd (mt List.mem_singleton.mp (s.driverFile_ne_documentFile c.name)),
      htouch.node?_eq hd (mt List.mem_singleton.mp (s.sdfFile_ne_documentFile c.name))]
    refine ⟨hpatched.entry_of_written ?_, hpatched.entry_of_written List.lookup_cons_self⟩
    rw [lookup_cons_patch, if_neg (s.driverFile_ne_sdfFile c.name), List.lookup_cons_self]
  · exact absurd hfail (writeFragments_not_fails hs hc.valid hc.separate h.root hdriver hsdf)

/-- In a tidy store, an admitted publication whose distance fragment cannot be named fails after it
has removed the driver. -/
theorem Tidy.publish_stops (h : s.Tidy d dir) (hs : s.settings.SlashFree) (hc : s.Admitted d c)
    {strict : Bool} (hg : Fragment.generate c s.settings strict = .ok g)
    (hdriver : s.root.entryFault? (s.driverFile c.name) = none)
    (hsdf : s.root.entryFault? (s.sdfFile c.name) ≠ none) :
    ((s.publish c strict).run d).disk.node? (s.driverFile c.name :: dir) = none := by
  have hne := isEntryName_driverFile hs hc.valid
  have hne' := isEntryName_sdfFile hs hc.valid
  have hr := h.replaceable hdriver
  rcases removeIfPresent_cases h.root hne with ⟨-, d₁, hy₁, hp₁⟩ | ⟨hn, -⟩
  · rcases removeIfPresent_cases (hp₁.directoryAt h.root) hne' with ⟨hr₂, -⟩ | ⟨-, e, hfail⟩
    · exact absurd hr₂.fits hsdf
    have hwrite : (s.writeFragments c.name g.driver g.sdf).Fails d e d₁ := by
      have hpaths : (of (s.paths c.name)).Yields d (s.artifacts c.name) d :=
        yields_of.mpr ⟨s.paths_of_isValid hc.valid, rfl⟩
      have hroot := ensureRoot_of_replaceable h.root hne hr
      exact fails_bind.mpr (.inr ⟨_, _, hpaths, fails_bind.mpr (.inr ⟨_, _, hc.separate,
        fails_bind.mpr (.inr ⟨_, _, hroot, fails_bind.mpr (.inr ⟨_, _, hy₁,
          fails_bind.mpr (.inl hfail)⟩)⟩)⟩)⟩)
    rw [disk_publish_of_fails hc.known hg hwrite]
    exact hp₁.entry_of_removed List.lookup_cons_self
  · exact absurd hr hn

/-! ## Documents of other presets -/

/-- The document of the preset `name` holds the same on both disks, byte for byte, and the same is
read from it. -/
structure DocumentUntouched (s : Store) (name : String) (d d' : Disk) : Prop where
  content : d'.readFile (s.documentPath name) = d.readFile (s.documentPath name)
  answer : ((s.readDocument name).run d').result = ((s.readDocument name).run d).result

theorem documentUntouched_of_content
    (h : d'.readFile (s.documentPath name) = d.readFile (s.documentPath name)) :
    s.DocumentUntouched name d d' :=
  ⟨h, result_readDocument_congr (by rw [readText, readText, h])⟩

/-- In tidy stores, two files that hold the same stand for one node. -/
theorem Tidy.readFile_eq_iff (h : s.Tidy d dir) (h' : s.Tidy d' dir) {f : String}
    (hf : IsEntryName f) (hfits : s.root.entryFault? f = none) :
    d'.readFile (s.root.join f) = d.readFile (s.root.join f) ↔
      d'.node? (f :: dir) = d.node? (f :: dir) := by
  have hr := (h.replaceable hfits).not_directory
  have hr' := (h'.replaceable hfits).not_directory
  rw [readFile, readFile, find_join h.root hf, find_join h'.root hf, hfits]
  rcases hn : d.node? (f :: dir) with _ | _ | content
  · rcases hn' : d'.node? (f :: dir) with _ | _ | content'
    · simp
    · exact absurd hn' hr'
    · simp
  · exact absurd hn hr
  · rcases hn' : d'.node? (f :: dir) with _ | _ | content'
    · simp
    · exact absurd hn' hr'
    · simp

/-- The publication of `c` is admitted and has a fragment with the file name of the document of `m`,
which does not hold that fragment already.  A driver is removed even where no distance fragment can
be written after it. -/
def Overwrites (s : Store) (d : Disk) (c : Config) (m : String) : Prop :=
  s.Admitted d c ∧ ∃ g, Fragment.generate c s.settings false = .ok g ∧
    (s.documentFile m = s.driverFile c.name ∧
        ¬ (d.readFile (s.documentPath m) = .ok g.driver.toUTF8 ∧
          s.root.entryFault? (s.sdfFile c.name) = none) ∨
      s.documentFile m = s.sdfFile c.name ∧ d.readFile (s.documentPath m) ≠ .ok g.sdf.toUTF8)

/-- Whether an admitted publication writes over a document, by what stands at its place. -/
theorem Tidy.overwrites_iff (h : s.Tidy d dir) (hs : s.settings.SlashFree)
    (hm : PresetName.IsValid m) (hfits : s.root.entryFault? (s.documentFile m) = none)
    (hc : s.Admitted d c) (hg : Fragment.generate c s.settings false = .ok g) :
    s.Overwrites d c m ↔
      s.documentFile m = s.driverFile c.name ∧
          ¬ (d.node? (s.documentFile m :: dir) = some (.file g.driver.toUTF8) ∧
            s.root.entryFault? (s.sdfFile c.name) = none) ∨
        s.documentFile m = s.sdfFile c.name ∧
          d.node? (s.documentFile m :: dir) ≠ some (.file g.sdf.toUTF8) := by
  have hread : ∀ content, d.node? (s.documentFile m :: dir) = some (.file content) ↔
      d.readFile (s.documentPath m) = .ok content := by
    intro content
    rw [documentPath, readFile_join_eq_ok_iff h.root (isEntryName_documentFile hs hm)]
    exact (and_iff_right hfits).symm
  rw [hread, ne_eq, hread]
  constructor
  · rintro ⟨-, g', hg', hcases⟩
    obtain rfl := Except.ok.inj (hg.symm.trans hg')
    exact hcases
  · intro hcases
    exact ⟨hc, g, hg, hcases⟩

/-- In a tidy store, a publication leaves the node of another document as it is exactly when it
does not write over it. -/
theorem Tidy.node?_publish_iff (h : s.Tidy d dir) (hs : s.settings.SlashFree)
    (hm : PresetName.IsValid m) (hne : m ≠ c.name)
    (hnode : d.node? (s.documentFile m :: dir) ≠ none) (strict : Bool) :
    ((s.publish c strict).run d).disk.node? (s.documentFile m :: dir)
        = d.node? (s.documentFile m :: dir) ↔ ¬ s.Overwrites d c m := by
  by_cases hrefused : ¬ s.Admitted d c
  · rw [disk_publish_of_not_admitted hs hrefused]
    exact iff_of_true rfl fun hover => hrefused hover.1
  have hc := Classical.not_not.mp hrefused
  have hfits := (h.entry _ hnode).2.fits
  obtain ⟨g, hg⟩ := hc.generate
  rw [h.overwrites_iff hs hm hfits hc (hg false)]
  by_cases hdriver : s.documentFile m = s.driverFile c.name
  · have hnsdf : s.documentFile m ≠ s.sdfFile c.name := by
      rw [hdriver]
      exact s.driverFile_ne_sdfFile c.name
    rw [hdriver] at hfits hnode hnsdf ⊢
    simp only [hnsdf, true_and, false_and, or_false, Classical.not_not]
    by_cases hsdf : s.root.entryFault? (s.sdfFile c.name) = none
    · rw [(h.publish_writes hs hc (hg strict) hsdf).1]
      simp [hsdf, eq_comm]
    · rw [h.publish_stops hs hc (hg strict) hfits hsdf]
      exact iff_of_false hnode.symm fun hcontra => hsdf hcontra.2
  · by_cases hsdf : s.documentFile m = s.sdfFile c.name
    · rw [hsdf] at hfits hdriver ⊢
      simp only [hdriver, true_and, false_and, false_or, ne_eq, Classical.not_not]
      rw [(h.publish_writes hs hc (hg strict) hfits).2]
      exact eq_comm
    · have hother : s.documentFile m ∉ s.files c.name := by
        simp only [files, List.mem_cons, List.not_mem_nil, or_false, not_or]
        exact ⟨hdriver, hsdf, fun hc => hne (documentFile_inj.mp hc)⟩
      rw [(touches_publish hs c strict d).node?_eq h.root hother]
      exact iff_of_true rfl (by simp [hdriver, hsdf])

/-- **Exactly when a publication leaves the document of another preset alone.**  Whatever the
extensions are, on every disk that publications, regenerations and removals lead to from one on
which the store holds nothing: the publication of `c` leaves the document of the listed preset `m`
as it is, and what is read from it, unless it writes over it. -/
theorem documentUntouched_publish_iff (hvacant : s.Vacant d₀) (h : s.Operated d₀ d)
    (hl : s.Lists d m) (hne : m ≠ c.name) (strict : Bool) :
    s.DocumentUntouched m d ((s.publish c strict).run d).disk ↔ ¬ s.Overwrites d c m := by
  have hs := h.slashFree_of_lists hvacant hl
  have htouch := touches_publish hs c strict d
  rcases h.orderly hs hvacant with ⟨dir, ht⟩ | habsent
  · obtain ⟨hm, hnode⟩ := ht.document_of_lists hl
    have ht' := Orderly.tidy (Orderly.touches (.inl ⟨dir, ht⟩) htouch) (htouch.directoryAt ht.root)
    have hcontent := ht.readFile_eq_iff ht' (isEntryName_documentFile hs hm)
      (ht.entry _ hnode).2.fits
    rw [← ht.node?_publish_iff hs hm hne hnode strict, ← hcontent]
    exact ⟨DocumentUntouched.content, documentUntouched_of_content⟩
  · exact absurd hl habsent.not_lists

/-! ## A document that is written over -/

/-- A store whose fragments have the extension of documents. -/
def sameExtension : Store := ⟨⟨"shaders"⟩, { (default : Settings) with fragmentExt := "json" }⟩

/-- The disk after `Foo` was published there. -/
def fooPublished : Disk :=
  ((sameExtension.publish ⟨"Foo", [.boxFold], .box⟩ true).run (Disk.empty ["scratch"])).disk

theorem operated_fooPublished : Operated sameExtension (Disk.empty ["scratch"]) fooPublished :=
  .publish _ true .start

theorem lists_fooPublished : sameExtension.Lists fooPublished "Foo" :=
  lists_iff_entries.mpr ⟨_, rfl, "Foo_Conf.json", by decide, by decide⟩

/-- The publication of `Bar` leaves the document of `Foo` alone, although fragments have the
extension of documents. -/
theorem documentUntouched_publish_bar :
    Operated sameExtension (Disk.empty ["scratch"]) fooPublished ∧
      sameExtension.Lists fooPublished "Foo" ∧ sameExtension.DocumentUntouched "Foo" fooPublished
        ((sameExtension.publish ⟨"Bar", [], .sphere⟩ true).run fooPublished).disk := by
  have hroot : (⟨"shaders"⟩ : Path).Ordinary :=
    Path.ordinary_of_isEntryName (by constructor <;> decide)
  have hvacant : Vacant sameExtension (Disk.empty ["scratch"]) := vacant_empty hroot _
  refine ⟨operated_fooPublished, lists_fooPublished, ?_⟩
  refine (documentUntouched_publish_iff hvacant operated_fooPublished lists_fooPublished
    (by decide) true).mpr ?_
  rintro ⟨-, g, -, ⟨hfile, -⟩ | ⟨hfile, -⟩⟩
  · exact absurd hfile (by decide)
  · exact absurd hfile (by decide)

/-- **A publication that writes over the document of another preset.**  Where fragments have the
extension of documents, the driver of `Foo_Conf` is the document of `Foo`.  After `Foo` was
published, `Foo_Conf` is published as well, and the document of `Foo`, which stays listed, is
malformed. -/
theorem publish_overwrites_document :
    Operated sameExtension (Disk.empty ["scratch"]) fooPublished ∧
      sameExtension.Lists fooPublished "Foo" ∧
      (sameExtension.readDocument "Foo").Yields fooPublished ⟨"Foo", [.boxFold], .box⟩ fooPublished ∧
      ∃ p d', (sameExtension.publish ⟨"Foo_Conf", [], .sphere⟩ true).Yields fooPublished p d' ∧
        sameExtension.Lists d' "Foo" ∧
        (∃ reason, (sameExtension.readDocument "Foo").Fails d'
          (.malformedDocument "shaders/Foo_Conf.json" reason) d') ∧
        ¬ sameExtension.DocumentUntouched "Foo" fooPublished d' := by
  have hread : (sameExtension.readDocument "Foo").Yields fooPublished
      ⟨"Foo", [.boxFold], .box⟩ fooPublished :=
    readDocument_yields_iff.mpr ⟨by decide,
      ⟨_, _, readText_of_readFile rfl, Document.decode_encode ⟨[.boxFold], .box⟩, rfl⟩, rfl⟩
  obtain ⟨fault, hfault⟩ := Fragment.decode_driver sameExtension.settings "Foo_Conf"
  have hfail : (sameExtension.readDocument "Foo").Fails
      ((sameExtension.publish ⟨"Foo_Conf", [], .sphere⟩ true).run fooPublished).disk _ _ :=
    readDocument_fails_of_decode (by decide) (readText_of_readFile rfl) hfault
  refine ⟨operated_fooPublished, lists_fooPublished, hread, _, _, ⟨rfl, rfl⟩, ?_, ⟨_, hfail⟩, ?_⟩
  · exact lists_iff_entries.mpr ⟨_, rfl, "Foo_Conf.json", by decide, by decide⟩
  · intro h
    have hsame := h.answer
    rw [hread.1, hfail.1] at hsame
    exact absurd hsame (by simp)

end FractalShader.Store
