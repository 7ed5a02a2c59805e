import FractalShader.Proofs.Store.Run
import FractalShader.Proofs.Store.Stored

/-!
# What a removal does to other presets

A removal deletes the three files of a name without asking whether one of them
also belongs to another preset.  The one file that two names share is the
distance fragment of `n`, which is the driver of `nSDF`; so to remove `nSDF` is
to delete a fragment of `n`, and to remove `n` is to delete the driver of
`nSDF`.  In every other case the other preset is left alone.

* `Operated` — the disks that publications, regenerations and removals lead to;
* `Operated.orderly` — on all of them the store is orderly;
* `load_congr` — what is loaded depends on two files only;
* `Untouched` — a preset of which all files and the answer to `load` are the same;
* `untouched_remove_iff` — exactly when a removal leaves another preset alone;
* `remove_deletes_fragment` — a removal that does not.
-/

namespace FractalShader.Store

open FractalShader.Action FractalShader.Disk

/-! ## Reachable disks -/

/-- What publications, regenerations and removals lead to from the disk `d₀`, in whatever order
and with whatever results. -/
inductive Operated (s : Store) (d₀ : Disk) : Disk → Prop where
  | start : Operated s d₀ d₀
  | publish {d : Disk} (c : Config) (strict : Bool) :
      Operated s d₀ d → Operated s d₀ ((s.publish c strict).run d).disk
  | regenerate {d : Disk} (name : String) (strict : Bool) :
      Operated s d₀ d → Operated s d₀ ((s.regenerate name strict).run d).disk
  | remove {d : Disk} (name : String) :
      Operated s d₀ d → Operated s d₀ ((s.remove name).run d).disk

variable {s : Store} {d d' d₀ : Disk} {dir : Place} {name : String}

/-- A removal that the disk refuses changes nothing. -/
theorem disk_removeIfPresent {p : Path} (h : ∀ changed, d.removeFile p ≠ .ok changed) :
    ((removeIfPresent p).run d).disk = d := by
  rw [removeIfPresent, run_request]
  cases hr : d.removeFile p with
  | ok changed => exact absurd hr (h changed)
  | error e => cases e <;> rfl

/-- Where there is no directory, there is nothing to remove in it. -/
theorem disk_removeIfPresent_of_absent (h : s.Absent d) {file : String} (hf : IsEntryName file) :
    ((removeIfPresent (s.root.join file)).run d).disk = d := by
  refine disk_removeIfPresent fun changed hc => ?_
  unfold removeFile at hc
  cases hl : d.locate (s.root.join file) with
  | error e =>
    rw [hl] at hc
    exact absurd hc (by simp)
  | ok spot =>
    obtain ⟨dir, hd⟩ := directoryAt_of_locate_join hf hl
    exact h.root dir hd

theorem disk_remove_of_absent (hs : s.settings.SlashFree) (h : s.Absent d) (name : String) :
    ((s.remove name).run d).disk = d := by
  unfold remove
  cases hp : s.paths name with
  | error e => rfl
  | ok paths =>
    obtain ⟨hv, rfl⟩ := s.paths_eq_ok_iff.mp hp
    have hpaths : (of (.ok (s.artifacts name))).Yields d (s.artifacts name) d :=
      yields_of.mpr ⟨rfl, rfl⟩
    rw [hpaths.disk_bind]
    have hdriver := disk_removeIfPresent_of_absent h (isEntryName_driverFile hs hv)
    have hsdf := disk_removeIfPresent_of_absent h (isEntryName_sdfFile hs hv)
    have hdocument := disk_removeIfPresent_of_absent h (isEntryName_documentFile hs hv)
    refine disk_bind_eq hdriver fun _ => ?_
    refine disk_bind_eq hsdf fun _ => ?_
    exact disk_bind_eq hdocument fun _ => rfl

theorem disk_remove_of_not_isValid (hv : ¬ PresetName.IsValid name) :
    ((s.remove name).run d).disk = d := by
  unfold remove
  cases hp : s.paths name with
  | error e => rfl
  | ok paths => exact absurd (s.paths_eq_ok_iff.mp hp).1 hv

theorem Orderly.remove (hs : s.settings.SlashFree) (h : s.Orderly d) (name : String) :
    s.Orderly ((s.remove name).run d).disk := by
  rcases h with ⟨dir, ht⟩ | h
  · by_cases hv : PresetName.IsValid name
    · obtain ⟨removed, rest, hfiles, hp, hr, -⟩ := remove_spec hs hv ht.root
      refine .inl ⟨dir, ht.patched hp ?_⟩
      intro f c hl
      rw [lookup_map_removed] at hl
      by_cases hf : f ∈ removed
      · refine ⟨isEntryName_of_mem_files hs hv f ?_, (hr f hf).fits⟩
        rw [hfiles]
        exact List.mem_append_left _ hf
      · rw [if_neg hf] at hl
        exact absurd hl (by simp)
    · rw [disk_remove_of_not_isValid hv]
      exact .inl ⟨dir, ht⟩
  · rw [disk_remove_of_absent hs h]
    exact .inr h

/-- **Every reachable store is orderly.** -/
theorem Operated.orderly (hs : s.settings.SlashFree) (hvacant : s.Vacant d₀)
    (h : s.Operated d₀ d) : s.Orderly d := by
  induction h with
  | start => exact hvacant.orderly
  | @publish d c strict _ ih => exact ih.touches (touches_publish hs c strict d)
  | @regenerate d name strict _ ih => exact ih.touches (touches_regenerate hs name strict d)
  | @remove d name _ ih => exact ih.remove hs name

/-! ## What a preset's answers depend on -/

theorem result_readDocument_congr
    (hdocument : d'.readText (s.documentPath name) = d.readText (s.documentPath name)) :
    ((s.readDocument name).run d').result = ((s.readDocument name).run d).result := by
  refine (readsOnly_of _).result_bind_congr rfl ?_
  intro paths hpaths
  rw [yields_of, paths_eq_ok_iff] at hpaths
  obtain ⟨⟨-, rfl⟩, -⟩ := hpaths
  apply (readsOnly_look _).result_bind_congr (congrArg Except.ok hdocument)
  intro r _
  split
  · rfl
  · rfl
  · split
    · rfl
    · rfl

/-- What is loaded depends on whether the driver is there and on what the document says. -/
theorem load_congr
    (hdriver : d'.exists? (s.artifacts name).driver = d.exists? (s.artifacts name).driver)
    (hdocument : d'.readText (s.documentPath name) = d.readText (s.documentPath name)) :
    ((s.load name).run d').result = ((s.load name).run d).result := by
  have htry : ((s.tryLoad name).run d').result = ((s.tryLoad name).run d).result := by
    refine (readsOnly_of _).result_bind_congr rfl ?_
    intro paths hpaths
    rw [yields_of, paths_eq_ok_iff] at hpaths
    obtain ⟨⟨-, rfl⟩, -⟩ := hpaths
    apply (readsOnly_ask _ _).result_bind_congr (congrArg (refused _) hdriver)
    intro present _
    split
    · exact result_readDocument_congr hdocument
    · rfl
  apply (s.readsOnly_tryLoad name).attempt.result_bind_congr (congrArg Except.ok htry)
  intro r _
  split
  · rfl
  · split
    · rfl
    · rfl

/-- The three files of the preset `name` hold the same on both disks, byte for byte, and it is
loaded with the same answer. -/
structure Untouched (s : Store) (name : String) (d d' : Disk) : Prop where
  driver : d'.readFile (s.artifacts name).driver = d.readFile (s.artifacts name).driver
  sdf : d'.readFile (s.artifacts name).sdf = d.readFile (s.artifacts name).sdf
  document : d'.readFile (s.artifacts name).document = d.readFile (s.artifacts name).document
  load : ((s.load name).run d').result = ((s.load name).run d).result

/-- Where each file of a preset is as it was, nothing is seen of the change. -/
theorem untouched_of_node? (hs : s.settings.SlashFree) (hv : PresetName.IsValid name)
    (hd : d.directoryAt s.root = .ok dir) (hd' : d'.directoryAt s.root = .ok dir)
    (hsame : ∀ f ∈ s.files name, d'.node? (f :: dir) = d.node? (f :: dir)) :
    s.Untouched name d d' := by
  have hfind : ∀ f ∈ s.files name, d'.find (s.root.join f) = d.find (s.root.join f) := by
    intro f hf
    have hname := isEntryName_of_mem_files hs hv f hf
    rw [find_join hd hname, find_join hd' hname, hsame f hf]
  have hread : ∀ f ∈ s.files name, d'.readFile (s.root.join f) = d.readFile (s.root.join f) := by
    intro f hf
    rw [readFile, readFile, hfind f hf]
  have hdriver := s.driverFile_mem_files name
  have hsdf := s.sdfFile_mem_files name
  have hdocument := s.documentFile_mem_files name
  refine ⟨hread _ hdriver, hread _ hsdf, hread _ hdocument, load_congr ?_ ?_⟩
  · show d'.exists? (s.root.join _) = d.exists? (s.root.join _)
    rw [exists?, exists?, hfind _ hdriver]
  · show d'.readText (s.root.join _) = d.readText (s.root.join _)
    rw [readText, readText, hread _ hdocument]

/-! ## How far a removal gets -/

/-- What is taken from a list as long as `P` holds has every element that comes before the first
without `P`. -/
theorem mem_of_maximal_prefix {α : Type} {P : α → Prop} {taken rest back : List α} {a : α}
    (front : List α) (hrest : ∀ x, rest.head? = some x → ¬ P x)
    (h : taken ++ rest = front ++ a :: back)
    (hfront : ∀ x ∈ front, P x) (ha : P a) : a ∈ taken := by
  rcases List.append_eq_append_iff.mp h with ⟨more, hmore, hback⟩ | ⟨more, hmore, hback⟩
  · -- nothing of `front` can be where the taking stopped
    exfalso
    cases more with
    | nil => exact hrest a (by rw [hback]; rfl) ha
    | cons x more =>
      refine hrest x (by rw [hback]; rfl) (hfront x ?_)
      rw [hmore]
      exact List.mem_append_right _ List.mem_cons_self
  · cases more with
    | nil => exact absurd ha (hrest a (by rw [← List.nil_append rest, ← hback]; rfl))
    | cons x more =>
      rw [hmore, (List.cons.inj hback).1]
      exact List.mem_append_right _ List.mem_cons_self

/-- Where the distance fragment of a name can be named, so can its driver. -/
theorem entryFault?_driverFile (hs : s.settings.SlashFree) (hv : PresetName.IsValid name)
    (h : s.root.entryFault? (s.sdfFile name) = none) :
    s.root.entryFault? (s.driverFile name) = none := by
  refine Path.entryFault?_of_subset (isEntryName_sdfFile hs hv) (isEntryName_driverFile hs hv)
    (fun c hc => ?_) ?_ h
  · rw [sdfFile_eq, toList_driverFile, Fragment.sdfStem, String.toList_append]
    rw [toList_driverFile] at hc
    rcases List.mem_append.mp hc with hc | hc
    · exact List.mem_append_left _ (List.mem_append_left _ hc)
    · exact List.mem_append_right _ hc
  · simp only [sdfFile, driverFile, Fragment.sdfStem, String.utf8ByteSize_append]
    omega

/-- In a tidy store, whichever fragments of a name are there are removed. -/
theorem Tidy.readFile_remove_ne (h : s.Tidy d dir) (hs : s.settings.SlashFree)
    (hv : PresetName.IsValid name) {f : String} (hf : f = s.driverFile name ∨ f = s.sdfFile name)
    (hnode : d.node? (f :: dir) ≠ none) :
    ((s.remove name).run d).disk.readFile (s.root.join f) ≠ d.readFile (s.root.join f) := by
  obtain ⟨hname, hr⟩ := h.entry f hnode
  obtain ⟨removed, rest, hfiles, hp, -, hrest⟩ := remove_spec hs hv h.root
  -- the driver comes first, and it can be removed wherever the distance fragment can
  have hmem : f ∈ removed := by
    rcases hf with rfl | rfl
    · exact mem_of_maximal_prefix [] hrest hfiles.symm (fun x hx => absurd hx (by simp)) hr
    · refine mem_of_maximal_prefix [s.driverFile name] hrest hfiles.symm ?_ hr
      intro x hx
      rw [List.mem_singleton.mp hx]
      exact h.replaceable (entryFault?_driverFile hs hv hr.fits)
  have hgone := hp.entry_of_removed (by rw [lookup_map_removed, if_pos hmem])
  rw [readFile_join_of_notFound (hp.directoryAt h.root) hname hr.fits hgone]
  intro hc
  cases hx : d.node? (f :: dir) with
  | none => exact hnode hx
  | some x =>
    cases x with
    | directory => exact hr.not_directory hx
    | file content =>
      have hread := (readFile_join_eq_ok_iff h.root hname).mpr ⟨hr.fits, hx⟩
      rw [hread] at hc
      exact absurd hc (by simp)

/-- In a tidy store, a removal leaves another preset alone when the file that they share is not
there. -/
theorem Tidy.untouched_remove (h : s.Tidy d dir) (hs : s.settings.Plain) {m n : String}
    (hm : PresetName.IsValid m) (hn : PresetName.IsValid n) (hne : m ≠ n)
    (hsdf : n = Fragment.sdfStem m → d.node? (s.sdfFile m :: dir) = none)
    (hdriver : m = Fragment.sdfStem n → d.node? (s.driverFile m :: dir) = none) :
    s.Untouched m d ((s.remove n).run d).disk := by
  obtain ⟨removed, rest, hfiles, hp, -, -⟩ := remove_spec hs.slashFree hn h.root
  refine untouched_of_node? hs.slashFree hm h.root (hp.directoryAt h.root) ?_
  intro f hf
  by_cases hmem : f ∈ removed
  · have hfn : f ∈ s.files n := by
      rw [hfiles]
      exact List.mem_append_left _ hmem
    have hgone := hp.entry_of_removed (by rw [lookup_map_removed, if_pos hmem])
    rcases shared_file hs hne hf hfn with ⟨heq, rfl⟩ | ⟨heq, rfl⟩
    · rw [hgone, hsdf heq]
    · rw [hgone, hdriver heq]
  · exact hp.entry_of_not_mem (by rw [lookup_map_removed, if_neg hmem])

/-- **Exactly when a removal leaves another preset alone.**  On every disk that publications,
regenerations and removals lead to, the removal of `n` leaves the listed preset `m` as it is,
unless `n` is `mSDF` and the distance fragment of `m` is there, or `m` is `nSDF` and the driver of
`m` is there. -/
theorem untouched_remove_iff {m n : String} (hs : s.settings.Plain) (hvacant : s.Vacant d₀)
    (h : s.Operated d₀ d) (hn : PresetName.IsValid n) (hne : m ≠ n) (hl : s.Lists d m) :
    s.Untouched m d ((s.remove n).run d).disk ↔
      ¬ (n = Fragment.sdfStem m ∧ d.exists? (s.artifacts m).sdf = .ok true) ∧
      ¬ (m = Fragment.sdfStem n ∧ d.exists? (s.artifacts m).driver = .ok true) := by
  rcases h.orderly hs.slashFree hvacant with ⟨dir, ht⟩ | habsent
  · obtain ⟨hm, -⟩ := ht.document_of_lists hl
    have hsdf := ht.exists?_iff (isEntryName_sdfFile hs.slashFree hm)
    have hdriver := ht.exists?_iff (isEntryName_driverFile hs.slashFree hm)
    constructor
    · intro hkept
      refine ⟨?_, ?_⟩
      · rintro ⟨heq, hthere⟩
        have hfile : s.sdfFile m = s.driverFile n := by rw [sdfFile_eq, heq]
        exact ht.readFile_remove_ne hs.slashFree hn (.inl hfile) (hsdf.mp hthere) hkept.sdf
      · rintro ⟨heq, hthere⟩
        have hfile : s.driverFile m = s.sdfFile n := driverFile_eq_sdfFile.mpr heq
        exact ht.readFile_remove_ne hs.slashFree hn (.inr hfile) (hdriver.mp hthere) hkept.driver
    · rintro ⟨hnsdf, hndriver⟩
      refine ht.untouched_remove hs hm hn hne ?_ ?_
      · intro heq
        by_cases hthere : d.node? (s.sdfFile m :: dir) = none
        · exact hthere
        · exact absurd ⟨heq, hsdf.mpr hthere⟩ hnsdf
      · intro heq
        by_cases hthere : d.node? (s.driverFile m :: dir) = none
        · exact hthere
        · exact absurd ⟨heq, hdriver.mpr hthere⟩ hndriver
  · exact absurd hl habsent.not_lists

/-- After `Foo` was published, it is listed. -/
theorem lists_after_publish :
    Store.Lists ⟨⟨"shaders"⟩, default⟩ ((publish ⟨⟨"shaders"⟩, default⟩ ⟨"Foo", [.boxFold], .box⟩
      true).run (Disk.empty ["scratch"])).disk "Foo" :=
  lists_iff_entries.mpr ⟨_, rfl, "Foo_Conf.json", by decide, by decide⟩

/-- After `Foo` was published, the removal of `Bar` leaves it alone. -/
theorem untouched_remove_bar :
    ∃ d, Operated ⟨⟨"shaders"⟩, default⟩ (Disk.empty ["scratch"]) d ∧
      Lists ⟨⟨"shaders"⟩, default⟩ d "Foo" ∧
      Untouched ⟨⟨"shaders"⟩, default⟩ "Foo" d
        ((remove ⟨⟨"shaders"⟩, default⟩ "Bar").run d).disk := by
  have hroot : (⟨"shaders"⟩ : Path).Ordinary :=
    Path.ordinary_of_isEntryName (by constructor <;> decide)
  have hrun := Operated.publish ⟨"Foo", [.boxFold], .box⟩ true
    (Operated.start : Operated ⟨⟨"shaders"⟩, default⟩ (Disk.empty ["scratch"]) _)
  refine ⟨_, hrun, lists_after_publish, ?_⟩
  refine (untouched_remove_iff Settings.plain_default (vacant_empty hroot _) hrun (by decide)
    (by decide) lists_after_publish).mpr ⟨?_, ?_⟩
  · intro h
    exact absurd h.1 (by decide)
  · intro h
    exact absurd h.1 (by decide)

/-- **A removal that damages another preset.**  After `Foo` was published, the removal of `FooSDF`,
which was never published, removes one file: the distance fragment of `Foo`, which stays listed. -/
theorem remove_deletes_fragment :
    ∃ d, Operated ⟨⟨"shaders"⟩, default⟩ (Disk.empty ["scratch"]) d ∧
      Lists ⟨⟨"shaders"⟩, default⟩ d "Foo" ∧ PresetName.IsValid "FooSDF" ∧
      ((remove ⟨⟨"shaders"⟩, default⟩ "FooSDF").run d).result = .ok 1 ∧
      (∃ content, d.readFile ⟨"shaders/FooSDF.ush"⟩ = .ok content) ∧
      ((remove ⟨⟨"shaders"⟩, default⟩ "FooSDF").run d).disk.readFile ⟨"shaders/FooSDF.ush"⟩ =
        .error .notFound ∧
      ¬ Untouched ⟨⟨"shaders"⟩, default⟩ "Foo" d
        ((remove ⟨⟨"shaders"⟩, default⟩ "FooSDF").run d).disk := by
  have hrun := Operated.publish ⟨"Foo", [.boxFold], .box⟩ true
    (Operated.start : Operated ⟨⟨"shaders"⟩, default⟩ (Disk.empty ["scratch"]) _)
  refine ⟨_, hrun, lists_after_publish, by decide, rfl, ⟨_, rfl⟩, rfl, ?_⟩
  intro h
  have hsdf : Except.error OsError.notFound = Except.ok _ := h.sdf
  exact nomatch hsdf

end FractalShader.Store
