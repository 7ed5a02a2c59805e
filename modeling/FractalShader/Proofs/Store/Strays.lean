import FractalShader.Proofs.Session.Unusable
import FractalShader.Proofs.Store.Renewal

/-!
# Names without a preset

Whether a preset exists is told from its driver alone.  The operations of a store leave
no driver behind without a preset that it belongs to, but the preset need not be the one
of the driver's name: the driver of `mSDF` is the distance fragment of `m`.  So there is
one way in which a name without a preset is mistaken for one that lost its document.

* `AnswersFor`, `Accounted` — every driver belongs to a name with a document, or to one
  whose document cannot be named;
* `Accounted.publish`, `Accounted.regenerate`, `Accounted.remove`, `Operated.accounted`
  — this is so whatever the operations lead to;
* `Makeable`, `Operated.makeable` — the directory of the store is there or can be made;
* `Shadowed` — a name whose driver is the distance fragment of a listed preset;
* `tryLoad_of_unlisted` — what is loaded under a name that is not listed.
-/

namespace FractalShader.Store

open FractalShader.Action FractalShader.Disk

variable {s : Store} {d d' d₀ : Disk} {dir : Place} {name m n : String} {ps : Patches}

/-! ## Whose drivers there are -/

/-- The fragments in the directory `dir` can be those of the preset `m`: it has a document there,
unless its document cannot be named. -/
structure AnswersFor (s : Store) (d : Disk) (dir : Place) (m : String) : Prop where
  valid : PresetName.IsValid m
  document : s.root.entryFault? (s.documentFile m) = none → d.node? (s.documentFile m :: dir) ≠ none

/-- Every driver in the directory of the store is a fragment of a name that answers for it. -/
def Accounted (s : Store) (d : Disk) : Prop :=
  ∀ dir, d.directoryAt s.root = .ok dir → ∀ n, d.node? (s.driverFile n :: dir) ≠ none →
    ∃ m, s.AnswersFor d dir m ∧ (n = m ∨ n = Fragment.sdfStem m)

theorem AnswersFor.congr (h : s.AnswersFor d dir m)
    (hsame : d'.node? (s.documentFile m :: dir) = d.node? (s.documentFile m :: dir)) :
    s.AnswersFor d' dir m :=
  ⟨h.valid, hsame ▸ h.document⟩

theorem Vacant.accounted (h : s.Vacant d) : s.Accounted d := by
  intro dir hd n hn
  rcases h with ⟨dir', hd', hempty⟩ | habsent
  · obtain rfl := Except.ok.inj (hd'.symm.trans hd)
    exact absurd (hempty _) hn
  · exact absurd hd (habsent.root dir)

theorem Accounted.rooted (h : s.Accounted d) (horderly : s.Orderly d) :
    s.Accounted (s.rooted d) := by
  rcases horderly with ⟨dir, ht⟩ | habsent
  · rwa [rooted_of_directoryAt ht.root]
  · exact fun dir hd n hn => absurd (habsent.entry_eq_none hd _) hn

/-- Files of one name are written, and the name answers for them. -/
theorem Accounted.written (h : s.Accounted d) (hs : s.settings.Plain)
    (hd : d.directoryAt s.root = .ok dir) (hp : d.Patched dir ps d')
    (hkeys : ∀ f c, ps.lookup f = some c → f ∈ s.files name) (hname : s.AnswersFor d' dir name) :
    s.Accounted d' := by
  intro dir' hd' n hn
  obtain rfl := Except.ok.inj ((hp.directoryAt hd).symm.trans hd')
  cases hl : ps.lookup (s.driverFile n) with
  | some c => exact ⟨name, hname, (driverFile_mem_files_iff hs).mp (hkeys _ c hl)⟩
  | none =>
    rw [hp.entry_of_not_mem hl] at hn
    obtain ⟨m, hm, hnm⟩ := h dir hd n hn
    by_cases heq : m = name
    · exact ⟨name, hname, heq ▸ hnm⟩
    · have hother := lookup_eq_none hkeys (documentFile_not_mem_files hs heq)
      exact ⟨m, hm.congr (hp.entry_of_not_mem hother), hnm⟩

/-- Files are removed, and no document before the fragments that it answers for. -/
theorem Accounted.removed (h : s.Accounted d) (hd : d.directoryAt s.root = .ok dir)
    {removed : List String} (hp : d.Patched dir (removed.map fun f => (f, none)) d')
    (hlast : ∀ m, s.documentFile m ∈ removed → ∀ n, n = m ∨ n = Fragment.sdfStem m →
      s.driverFile n ∈ removed) : s.Accounted d' := by
  intro dir' hd' n hn
  obtain rfl := Except.ok.inj ((hp.directoryAt hd).symm.trans hd')
  have hkept : ∀ f, f ∉ removed → d'.node? (f :: dir) = d.node? (f :: dir) := fun f hf =>
    hp.entry_of_not_mem (by rw [lookup_map_removed, if_neg hf])
  have hn' : s.driverFile n ∉ removed := fun hc =>
    hn (hp.entry_of_removed (by rw [lookup_map_removed, if_pos hc]))
  rw [hkept _ hn'] at hn
  obtain ⟨m, hm, hnm⟩ := h dir hd n hn
  exact ⟨m, hm.congr (hkept _ fun hc => hn' (hlast m hc n hnm)), hnm⟩

/-! ## Whatever is done -/

/-- What is taken from the front of a list is all of it when the last element is among it. -/
theorem eq_of_last_mem {α : Type} {taken rest front : List α} {a : α}
    (h : taken ++ rest = front ++ [a]) (hnodup : (front ++ [a]).Nodup) (ha : a ∈ taken) :
    taken = front ++ [a] := by
  rcases List.eq_nil_or_concat rest with rfl | ⟨more, z, rfl⟩
  · rwa [List.append_nil] at h
  · exfalso
    rw [List.concat_eq_append, ← List.append_assoc] at h
    have hfront := (List.append_inj' h rfl).1
    refine (List.nodup_append.mp hnodup).2.2 a ?_ a (List.mem_singleton_self a) rfl
    rw [← hfront]
    exact List.mem_append_left _ ha

/-- Fragments that could not be replaced leave at most one driver less. -/
theorem Accounted.writeFragments_fails (h : s.Accounted d) (hs : s.settings.Plain)
    (horderly : s.Orderly d) {driver sdf : String} {e : PresetError}
    (hfail : (s.writeFragments name driver sdf).Fails d e d') : s.Accounted d' := by
  rcases writeFragments_fails_cases hs.slashFree hfail with ⟨rfl, -⟩ | hstuck
  · exact h
  rcases hstuck.cause with ⟨e', hroot⟩ | ⟨dir, -, hd, ⟨rfl, -⟩ | ⟨hp, -⟩⟩
  · rw [ensureRoot_fails hroot]
    exact h.rooted horderly
  · exact h.rooted horderly
  · have hp' : (s.rooted d).Patched dir ([s.driverFile name].map fun f => (f, none)) d' := hp
    refine (h.rooted horderly).removed hd hp' ?_
    intro m hm
    exact absurd (List.mem_singleton.mp hm).symm (driverFile_ne_documentFile_of_plain hs name m)

/-- Fragments are written by a name that answers for them. -/
theorem Accounted.fragmentsWritten (h : s.Accounted d) (hs : s.settings.Plain)
    (horderly : s.Orderly d) {driver sdf : String}
    (hw : s.FragmentsWritten d dir name driver sdf d') (hname : s.AnswersFor d' dir name) :
    s.Accounted d' :=
  (h.rooted horderly).written hs hw.root hw.patched
    (fun _ _ hl => mem_files_of_mem_fragments (mem_fragments_of_lookup hl)) hname

/-- A publication ends with the document, or the document cannot be named. -/
theorem Accounted.publish (h : s.Accounted d) (hs : s.settings.Plain) (horderly : s.Orderly d)
    (c : Config) (strict : Bool) : s.Accounted ((s.publish c strict).run d).disk := by
  rcases (s.publish c strict).yields_or_fails d with ⟨p, hy⟩ | ⟨e, hfail⟩
  · obtain ⟨-, -, dir, hw⟩ := publish_yields hs.slashFree hy
    refine (h.rooted horderly).written hs hw.root hw.patched
      (fun f k hl => (hw.writable.mem_files hs.slashFree hw.valid hl).1) ⟨hw.valid, fun _ => ?_⟩
    rw [hw.patched.entry_of_written (by rw [lookup_cons_patch, if_pos rfl])]
    simp
  · rcases publish_fails_cases hfail with heq | ⟨g, hwrite⟩ | ⟨g, paths, d₁, hknown, hwrite, hsave⟩
    · rwa [heq]
    · exact h.writeFragments_fails hs horderly hwrite
    · obtain ⟨-, dir, hw⟩ := writeFragments_yields hs.slashFree hwrite
      have hd := hw.patched.directoryAt hw.root
      obtain ⟨heq, hr⟩ := save_fails hs.slashFree hw.valid hknown hd hsave
      have htouches := touches_writeFragments hs.slashFree c.name g.driver g.sdf d
      have ht : s.Tidy d₁ dir := (horderly.touches (hwrite.2 ▸ htouches)).tidy hd
      rw [heq]
      exact h.fragmentsWritten hs horderly hw
        ⟨hw.valid, fun hfits => absurd (ht.replaceable hfits) hr⟩

/-- A regeneration starts from the document. -/
theorem Accounted.regenerate (h : s.Accounted d) (hs : s.settings.Plain) (horderly : s.Orderly d)
    (name : String) (strict : Bool) : s.Accounted ((s.regenerate name strict).run d).disk := by
  rcases (s.regenerate name strict).yields_or_fails d with ⟨p, hy⟩ | ⟨e, hfail⟩
  · obtain ⟨c, dir, hread, -, hw⟩ := regenerate_yields hs.slashFree hy
    refine h.fragmentsWritten hs horderly hw ⟨hw.valid, fun _ => ?_⟩
    obtain ⟨dir', content, hd, hcontent⟩ := readDocument_content hs.slashFree hread
    obtain ⟨rfl, -, -, hp⟩ := hw.of_directoryAt hd
    have hnode := ((readFile_join_eq_ok_iff hd
      (isEntryName_documentFile hs.slashFree hw.valid)).mp hcontent).2
    rw [entry_of_not_mem_fragments hp (s.documentFile_not_mem_fragments name), hnode]
    simp
  · rcases regenerate_fails_cases hfail with heq | ⟨g, hwrite⟩
    · rwa [heq]
    · exact h.writeFragments_fails hs horderly hwrite

/-- A removal takes the document last, when both fragments are gone. -/
theorem Accounted.remove (h : s.Accounted d) (hs : s.settings.Plain) (horderly : s.Orderly d)
    (name : String) : s.Accounted ((s.remove name).run d).disk := by
  by_cases hv : PresetName.IsValid name
  · rcases horderly with ⟨dir, ht⟩ | habsent
    · obtain ⟨removed, rest, hfiles, hp, -, -⟩ := remove_spec hs.slashFree hv ht.root
      refine h.removed ht.root hp ?_
      intro m hm n hn
      have hmem : s.documentFile m ∈ s.files name := hfiles ▸ List.mem_append_left _ hm
      have hmname : m = name := by
        by_contra hne
        exact documentFile_not_mem_files hs hne hmem
      subst hmname
      -- the document is the last of the three, so both fragments went before it
      have hall : removed = s.fragments m ++ [s.documentFile m] :=
        eq_of_last_mem hfiles.symm (s.nodup_files m) hm
      rw [hall]
      exact (driverFile_mem_files_iff hs).mpr hn
    · rwa [disk_remove_of_absent hs.slashFree habsent]
  · rwa [disk_remove_of_not_isValid hv]

/-- **Every driver belongs to a preset**, whatever publications, regenerations and removals lead
to. -/
theorem Operated.accounted (hs : s.settings.Plain) (hvacant : s.Vacant d₀)
    (h : s.Operated d₀ d) : s.Accounted d := by
  induction h with
  | start => exact hvacant.accounted
  | publish c strict hrun ih => exact ih.publish hs (hrun.orderly hs.slashFree hvacant) c strict
  | regenerate name strict hrun ih =>
    exact ih.regenerate hs (hrun.orderly hs.slashFree hvacant) name strict
  | remove name hrun ih => exact ih.remove hs (hrun.orderly hs.slashFree hvacant) name

/-! ## Where the store is -/

/-- The directory of the store is there, or it can be made. -/
def Makeable (s : Store) (d : Disk) : Prop :=
  (∃ dir, d.directoryAt s.root = .ok dir) ∨ s.Absent d ∧ ∃ d', s.ensureRoot.Yields d () d'

theorem Vacant.makeable (h : s.Vacant d) (hmade : s.ensureRoot.Yields d () d') : s.Makeable d := by
  rcases h with ⟨dir, hd, -⟩ | habsent
  · exact .inl ⟨dir, hd⟩
  · exact .inr ⟨habsent, d', hmade⟩

/-- What touches files of the store only leaves it makeable. -/
theorem Makeable.touches {fs : List String} (h : s.Makeable d) (ht : s.Touches fs d d') :
    s.Makeable d' := by
  rcases h with ⟨dir, hd⟩ | ⟨habsent, d₁, hmade⟩
  · exact .inl ⟨dir, ht.directoryAt hd⟩
  · rcases ht with rfl | rfl | ⟨dir, ps, hd, hp, -⟩
    · exact .inr ⟨habsent, d₁, hmade⟩
    · obtain ⟨rfl, hd⟩ := ensureRoot_yields hmade
      exact .inl hd
    · exact .inl ⟨dir, hp.directoryAt hd⟩

theorem Makeable.remove (h : s.Makeable d) (hs : s.settings.SlashFree) (name : String) :
    s.Makeable ((s.remove name).run d).disk := by
  by_cases hv : PresetName.IsValid name
  · rcases h with ⟨dir, hd⟩ | ⟨habsent, hmade⟩
    · obtain ⟨removed, rest, -, hp, -, -⟩ := remove_spec hs hv hd
      exact .inl ⟨dir, hp.directoryAt hd⟩
    · rw [disk_remove_of_absent hs habsent]
      exact .inr ⟨habsent, hmade⟩
  · rwa [disk_remove_of_not_isValid hv]

theorem Operated.makeable (hs : s.settings.SlashFree) (hmakeable : s.Makeable d₀)
    (h : s.Operated d₀ d) : s.Makeable d := by
  induction h with
  | start => exact hmakeable
  | @publish d c strict _ ih => exact ih.touches (touches_publish hs c strict d)
  | @regenerate d name strict _ ih => exact ih.touches (touches_regenerate hs name strict d)
  | remove name _ ih => exact ih.remove hs name

/-! ## What is loaded under a name without a preset -/

/-- The driver of `n` is there, as the distance fragment of a preset that is listed. -/
def Shadowed (s : Store) (d : Disk) (n : String) : Prop :=
  ∃ m, s.Lists d m ∧ n = Fragment.sdfStem m ∧ d.exists? (s.artifacts m).sdf = .ok true

/-- In a directory where all drivers are accounted for, the driver of a name that is not listed is
the distance fragment of a listed one. -/
theorem Tidy.shadowed_iff (ht : s.Tidy d dir) (hs : s.settings.SlashFree)
    (haccounted : s.Accounted d) (hroot : s.root.text ≠ "")
    (hfits : s.root.entryFault? (s.documentFile n) = none) (hl : ¬ s.Lists d n) :
    s.Shadowed d n ↔ d.node? (s.driverFile n :: dir) ≠ none := by
  have horderly : s.Orderly d := .inl ⟨dir, ht⟩
  constructor
  · rintro ⟨m, hm, rfl, hsdf⟩
    have hv := ((horderly.lists_iff hs ht.root).mp hm).2.1
    exact (ht.exists?_iff (isEntryName_sdfFile hs hv)).mp hsdf
  · intro hn
    obtain ⟨m, hm, rfl | rfl⟩ := haccounted dir ht.root n hn
    · exact absurd ((horderly.lists_iff hs ht.root).mpr ⟨hroot, hm.valid, hm.document hfits⟩) hl
    · have hdocument := hm.document (entryFault?_documentFile_of_sdfStem hs hm.valid hfits)
      exact ⟨m, (horderly.lists_iff hs ht.root).mpr ⟨hroot, hm.valid, hdocument⟩, rfl,
        (ht.exists?_iff (isEntryName_sdfFile hs hm.valid)).mpr hn⟩

/-- Where a name has no document, its driver decides what is said of it. -/
theorem tryLoad_run_of_no_document (hs : s.settings.SlashFree)
    (hd : d.directoryAt s.root = .ok dir) (hv : PresetName.IsValid n)
    (hfits : ∀ f ∈ s.files n, s.root.entryFault? f = none)
    (hdocument : d.node? (s.documentFile n :: dir) = none) :
    (d.node? (s.driverFile n :: dir) = none →
      (s.tryLoad n).run d = ⟨.error (.notFound n), d, []⟩) ∧
    (d.node? (s.driverFile n :: dir) ≠ none → (s.tryLoad n).run d =
      ⟨.error (.malformedDocument (s.documentPath n).text "document is missing"), d,
        [.malformedDocument (s.documentPath n).text "document is missing"]⟩) := by
  have hexists := (exists?_join_eq_ok_iff hd (isEntryName_driverFile hs hv)).mpr
    ⟨hfits _ (s.driverFile_mem_files n), rfl⟩
  constructor
  · intro hn
    rw [hn] at hexists
    exact tryLoad_run_of_missing hv hexists
  · intro hn
    rw [Option.isSome_iff_ne_none.mpr hn] at hexists
    have hfile := readFile_join_of_notFound hd (isEntryName_documentFile hs hv)
      (hfits _ (s.documentFile_mem_files n)) hdocument
    have hread : d.readText (s.documentPath n) = .error .notFound := by
      rw [readText, documentPath, hfile]
    rw [tryLoad_run hv hexists, readDocument_run_of_missing hv hread]

/-- **A name without a preset is not found, unless another preset's fragment passes for its
driver.**  On every disk that publications, regenerations and removals lead to, a name that is not
listed and whose files could be named is loaded as one that was not found, with no warning, exactly
when it is not shadowed.  A shadowed name is reported as a preset without its document. -/
theorem tryLoad_of_unlisted (hs : s.settings.Plain) (hroot : s.root.text ≠ "")
    (hvacant : s.Vacant d₀) (hmade : s.ensureRoot.Yields d₀ () d') (h : s.Operated d₀ d)
    (hv : PresetName.IsValid n) (hfits : ∀ f ∈ s.files n, s.root.entryFault? f = none)
    (hl : ¬ s.Lists d n) :
    ((s.tryLoad n).run d = ⟨.error (.notFound n), d, []⟩ ↔ ¬ s.Shadowed d n) ∧
      (s.Shadowed d n → (s.tryLoad n).run d =
        ⟨.error (.malformedDocument (s.documentPath n).text "document is missing"), d,
          [.malformedDocument (s.documentPath n).text "document is missing"]⟩) := by
  rcases h.makeable hs.slashFree (hvacant.makeable hmade) with ⟨dir, hd⟩ | ⟨habsent, d₁, hmade'⟩
  · have horderly := h.orderly hs.slashFree hvacant
    have hdocument : d.node? (s.documentFile n :: dir) = none := by
      by_contra hc
      exact hl ((horderly.lists_iff hs.slashFree hd).mpr ⟨hroot, hv, hc⟩)
    obtain ⟨hmissing, hstray⟩ := tryLoad_run_of_no_document hs.slashFree hd hv hfits hdocument
    rw [(horderly.tidy hd).shadowed_iff hs.slashFree (h.accounted hs hvacant) hroot
      (hfits _ (s.documentFile_mem_files n)) hl, not_not]
    refine ⟨⟨?_, hmissing⟩, hstray⟩
    intro hrun
    by_contra hn
    rw [hstray hn] at hrun
    exact absurd hrun (by simp)
  · have hnot : ¬ s.Shadowed d n := fun ⟨m, hm, _⟩ => habsent.not_lists hm
    have hexists := exists?_join_of_missing (habsent.missing hmade')
      (isEntryName_driverFile hs.slashFree hv)
      (Path.entryFault?_eq_none_iff_fault?.mp (hfits _ (s.driverFile_mem_files n))).1
    exact ⟨iff_of_true (tryLoad_run_of_missing hv hexists) hnot, fun hc => absurd hc hnot⟩

/-- The disk on which `Foo` has been published, and nothing else. -/
def fooAlone : Disk :=
  ((publish ⟨⟨"shaders"⟩, default⟩ ⟨"Foo", [.boxFold], .box⟩ true).run (Disk.empty ["scratch"])).disk

theorem operated_fooAlone :
    Operated ⟨⟨"shaders"⟩, default⟩ (Disk.empty ["scratch"]) fooAlone :=
  .publish ⟨"Foo", [.boxFold], .box⟩ true .start

theorem vacant_beforeFoo : Vacant ⟨⟨"shaders"⟩, default⟩ (Disk.empty ["scratch"]) :=
  vacant_empty (Path.ordinary_of_isEntryName (by constructor <;> decide)) _

/-- A name without a document is not listed there. -/
theorem not_lists_fooAlone
    (h : fooAlone.node? [documentFile ⟨⟨"shaders"⟩, default⟩ n, "shaders", "scratch"] = none) :
    ¬ Lists ⟨⟨"shaders"⟩, default⟩ fooAlone n := by
  have horderly := operated_fooAlone.orderly Settings.plain_default.slashFree vacant_beforeFoo
  intro hl
  exact ((horderly.lists_iff Settings.plain_default.slashFree rfl).mp hl).2.2 h

theorem tryLoad_of_unlisted_bar :
    Operated ⟨⟨"shaders"⟩, default⟩ (Disk.empty ["scratch"]) fooAlone ∧
      ¬ Lists ⟨⟨"shaders"⟩, default⟩ fooAlone "Bar" ∧
      (tryLoad ⟨⟨"shaders"⟩, default⟩ "Bar").run fooAlone =
        ⟨.error (.notFound "Bar"), fooAlone, []⟩ := by
  have hmade : (ensureRoot ⟨⟨"shaders"⟩, default⟩).Yields (Disk.empty ["scratch"]) () _ := ⟨rfl, rfl⟩
  have hl : ¬ Lists ⟨⟨"shaders"⟩, default⟩ fooAlone "Bar" := not_lists_fooAlone rfl
  refine ⟨operated_fooAlone, hl, ?_⟩
  refine (tryLoad_of_unlisted Settings.plain_default (by decide) vacant_beforeFoo hmade
    operated_fooAlone (by decide) (by decide) hl).1.mpr ?_
  rintro ⟨m, -, hname, -⟩
  have hsuffix := dropSuffix?_eq_some_iff.mpr hname
  exact absurd hsuffix (by simp [show dropSuffix? "Bar" "SDF" = none by decide])

/-- **A name that was never used is taken for a damaged preset.**  The distance fragment of `Foo`
passes for the driver of `FooSDF`. -/
theorem tryLoad_fooSDF :
    Operated ⟨⟨"shaders"⟩, default⟩ (Disk.empty ["scratch"]) fooAlone ∧
      PresetName.IsValid "FooSDF" ∧ ¬ Lists ⟨⟨"shaders"⟩, default⟩ fooAlone "FooSDF" ∧
      (∀ f ∈ files ⟨⟨"shaders"⟩, default⟩ "FooSDF", (⟨"shaders"⟩ : Path).entryFault? f = none) ∧
      (tryLoad ⟨⟨"shaders"⟩, default⟩ "FooSDF").run fooAlone =
        ⟨.error (.malformedDocument "shaders/FooSDF_Conf.json" "document is missing"), fooAlone,
          [.malformedDocument "shaders/FooSDF_Conf.json" "document is missing"]⟩ ∧
      ((tryLoad ⟨⟨"shaders"⟩, default⟩ "FooSDF").run fooAlone).result ≠
        .error (.notFound "FooSDF") := by
  have hrun : (tryLoad ⟨⟨"shaders"⟩, default⟩ "FooSDF").run fooAlone =
      ⟨.error (.malformedDocument "shaders/FooSDF_Conf.json" "document is missing"), fooAlone,
        [.malformedDocument "shaders/FooSDF_Conf.json" "document is missing"]⟩ := rfl
  refine ⟨operated_fooAlone, by decide, not_lists_fooAlone rfl, by decide, hrun, ?_⟩
  rw [hrun]
  simp

end FractalShader.Store
