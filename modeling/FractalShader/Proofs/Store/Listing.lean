import FractalShader.Proofs.Store.Isolation

/-!
# What is listed after an operation

In an orderly store a preset is listed when its document is in the store's
directory, so what an operation does to the list is what it does to documents:
writing one adds its name, removing files adds none, and fragments do not count.

* `Lists.directoryAt` — where something is listed, the store has a directory;
* `Orderly.lists_iff` — the presets of an orderly store;
* `Orderly.lists_rooted`, `Orderly.lists_touches` — what leaves the list as it is;
* `Orderly.lists_written`, `Orderly.lists_of_remove` — what adds a name, and what
  adds none.
-/

namespace FractalShader.Store

open FractalShader.Action FractalShader.Disk

variable {s : Store} {d d' : Disk} {dir : Place} {name m : String} {fs : List String} {ps : Patches}

/-! ## Listed presets -/

theorem Lists.directoryAt (h : s.Lists d name) : ∃ dir, d.directoryAt s.root = .ok dir := by
  obtain ⟨entries, hentries, -⟩ := lists_iff_entries.mp h
  unfold Disk.list at hentries
  split at hentries
  · exact absurd hentries (by simp)
  · exact absurd hentries (by simp)
  · next place hfind => exact ⟨place, directoryAt_of_find hfind⟩

/-- **What is listed is what has a document.** -/
theorem Orderly.lists_iff (hs : s.settings.SlashFree) (h : s.Orderly d)
    (hd : d.directoryAt s.root = .ok dir) : s.Lists d name ↔
      s.root.text ≠ "" ∧ PresetName.IsValid name ∧ d.node? (s.documentFile name :: dir) ≠ none := by
  have ht := h.tidy hd
  constructor
  · intro hl
    exact ⟨hl.root_ne_empty, ht.document_of_lists hl⟩
  · rintro ⟨hroot, hv, hnode⟩
    exact lists_of_document hs hroot hd hv (ht.entry _ hnode).2 hnode

/-- Nothing is listed where nothing is held. -/
theorem Vacant.not_lists (h : s.Vacant d) : ¬ s.Lists d name := by
  intro hl
  rcases h with ⟨dir, hd, hempty⟩ | habsent
  · obtain ⟨entries, hentries, file, hfile, -⟩ := lists_iff_entries.mp hl
    unfold Disk.list at hentries
    split at hentries
    · exact absurd hentries (by simp)
    · exact absurd hentries (by simp)
    · next place hfind =>
      obtain rfl := Except.ok.inj (hd.symm.trans (directoryAt_of_find hfind))
      obtain rfl := Except.ok.inj hentries
      exact mem_children.mp hfile (hempty file)
  · exact habsent.not_lists hl

/-! ## What leaves the list as it is -/

theorem Orderly.lists_rooted (hs : s.settings.SlashFree) (h : s.Orderly d) :
    s.Lists (s.rooted d) name ↔ s.Lists d name := by
  rcases h with ⟨dir, ht⟩ | habsent
  · rw [rooted_of_directoryAt ht.root]
  · refine iff_of_false ?_ habsent.not_lists
    intro hl
    obtain ⟨dir, hd⟩ := hl.directoryAt
    have horderly : s.Orderly (s.rooted d) := Orderly.rooted (.inr habsent)
    exact ((horderly.lists_iff hs hd).mp hl).2.2 (habsent.entry_eq_none hd _)

theorem Orderly.lists_patched (hs : s.settings.SlashFree) (h : s.Orderly d) (h' : s.Orderly d')
    (hd : d.directoryAt s.root = .ok dir) (hp : d.Patched dir ps d')
    (hl : ps.lookup (s.documentFile name) = none) : s.Lists d' name ↔ s.Lists d name := by
  rw [h'.lists_iff hs (hp.directoryAt hd), h.lists_iff hs hd, hp.entry_of_not_mem hl]

/-- An operation that touches other files only leaves a name listed or not. -/
theorem Orderly.lists_touches (hs : s.settings.SlashFree) (h : s.Orderly d)
    (ht : s.Touches fs d d') (hn : s.documentFile name ∉ fs) :
    s.Lists d' name ↔ s.Lists d name := by
  have h' := h.touches ht
  rcases ht with rfl | rfl | ⟨dir, ps, hd, hp, hmem⟩
  · rfl
  · exact h.lists_rooted hs
  · rw [← h.lists_rooted hs]
    exact h.rooted.lists_patched hs h' hd hp (lookup_eq_none (fun f c hl => (hmem f c hl).1) hn)

/-! ## What changes it -/

/-- To write the document of a name is to list it. -/
theorem Orderly.lists_written (hs : s.settings.Plain) (h : s.Orderly d) (h' : s.Orderly d')
    (hd : (s.rooted d).directoryAt s.root = .ok dir) (hp : (s.rooted d).Patched dir ps d')
    (hv : PresetName.IsValid name) {content : ByteArray}
    (hdocument : ps.lookup (s.documentFile name) = some (some content))
    (hkeys : ∀ f c, ps.lookup f = some c → f ∈ s.files name) :
    s.Lists d' m ↔ s.root.text ≠ "" ∧ m = name ∨ s.Lists d m := by
  by_cases hm : m = name
  · subst hm
    rw [h'.lists_iff hs.slashFree (hp.directoryAt hd), hp.entry_of_written hdocument]
    constructor
    · rintro ⟨hroot, -, -⟩
      exact .inl ⟨hroot, rfl⟩
    · rintro (⟨hroot, -⟩ | hl)
      · exact ⟨hroot, hv, by simp⟩
      · exact ⟨hl.root_ne_empty, hv, by simp⟩
  · have hother : ps.lookup (s.documentFile m) = none :=
      lookup_eq_none hkeys (documentFile_not_mem_files hs hm)
    rw [h.rooted.lists_patched hs.slashFree h' hd hp hother, h.lists_rooted hs.slashFree]
    simp [hm]

/-- A removal lists nothing new. -/
theorem Orderly.lists_of_remove (hs : s.settings.SlashFree) (h : s.Orderly d)
    (hl : s.Lists ((s.remove name).run d).disk m) : s.Lists d m := by
  have h' := h.remove hs name
  rcases h with ⟨dir, ht⟩ | habsent
  · by_cases hv : PresetName.IsValid name
    · obtain ⟨removed, rest, -, hp, -, -⟩ := remove_spec hs hv ht.root
      have horderly : s.Orderly d := .inl ⟨dir, ht⟩
      obtain ⟨hroot, hm, hnode⟩ := (h'.lists_iff hs (hp.directoryAt ht.root)).mp hl
      refine (horderly.lists_iff hs ht.root).mpr ⟨hroot, hm, ?_⟩
      rcases hp.node?_eq_or (s.documentFile m :: dir) with hsame | ⟨f, c, hf, hlookup⟩
      · rwa [hsame] at hnode
      · rw [hf, hp.entry_of_lookup hlookup] at hnode
        rw [lookup_map_removed] at hlookup
        split at hlookup
        · exact absurd (by rw [← Option.some.inj hlookup]; rfl) hnode
        · exact absurd hlookup (by simp)
    · rwa [disk_remove_of_not_isValid hv] at hl
  · rwa [disk_remove_of_absent hs habsent] at hl

end FractalShader.Store
