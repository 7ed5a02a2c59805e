import FractalShader.Proofs.Store.Frame
import FractalShader.Proofs.Store.Inventory

/-!
# Tidy stores

In a directory that only the operations of a store have changed, every entry is
a file that can be named, so nothing else stands in the way of a preset.

* `Tidy` — the directory of a store in this state;
* `Orderly` — the store is tidy, or its directory is not there and will be empty
  when it is made; `Vacant` stores, which hold nothing, are orderly;
* `Orderly.touches` — whatever an operation leads to, the store stays orderly;
* `lists_iff_entries`, `Tidy.document_of_lists`, `lists_of_document` — what is
  listed, and that in a tidy store it is what has a document.
-/

namespace FractalShader

open FractalShader.Action FractalShader.Disk

namespace Store

/-! ## Stores that only their operations have changed -/

/-- Every entry of the store's directory `dir` is a file that can be named. -/
structure Tidy (s : Store) (d : Disk) (dir : Place) : Prop where
  root : d.directoryAt s.root = .ok dir
  entry : ∀ f, d.node? (f :: dir) ≠ none →
    IsEntryName f ∧ d.Replaceable s.root dir f

/-- The directory of the store is not there, and its path never steps up. -/
structure Absent (s : Store) (d : Disk) : Prop where
  root : ∀ dir, d.directoryAt s.root ≠ .ok dir
  no_up : ".." ∉ pieces s.root.text.toList

/-- The store is tidy, or it has yet to be made. -/
def Orderly (s : Store) (d : Disk) : Prop := (∃ dir, s.Tidy d dir) ∨ s.Absent d

/-- The store holds nothing: its directory is empty, or it has yet to be made. -/
def Vacant (s : Store) (d : Disk) : Prop :=
  (∃ dir, d.directoryAt s.root = .ok dir ∧ ∀ f, d.node? (f :: dir) = none) ∨ s.Absent d

variable {s : Store} {d d' : Disk} {dir : Place} {name : String} {fs : List String}

theorem Vacant.orderly (h : s.Vacant d) : s.Orderly d := by
  rcases h with ⟨dir, hd, hempty⟩ | h
  · exact .inl ⟨dir, hd, fun f hf => absurd (hempty f) hf⟩
  · exact .inr h

/-- A directory that was made for the store is empty. -/
theorem Absent.entry_eq_none (h : s.Absent d) (hd : (s.rooted d).directoryAt s.root = .ok dir)
    (f : String) : (s.rooted d).node? (f :: dir) = none :=
  (made_rooted s d).entry_eq_none h.no_up h.root hd f

/-- A directory that can be made is missing until then, and not hidden by something else. -/
theorem Absent.missing (h : s.Absent d) (hmade : s.ensureRoot.Yields d () d') :
    d.directoryAt s.root = .error .notFound := by
  rw [ensureRoot, yields_request] at hmade
  rcases directoryAt_before_makeDirectories (congrArg Prod.snd hmade) with ⟨dir, hd⟩ | hd
  · exact absurd hd (h.root dir)
  · exact hd

theorem Orderly.rooted (h : s.Orderly d) : s.Orderly (s.rooted d) := by
  rcases h with ⟨dir, ht⟩ | h
  · rw [rooted_of_directoryAt ht.root]
    exact .inl ⟨dir, ht⟩
  · by_cases hd : ∃ dir, (s.rooted d).directoryAt s.root = .ok dir
    · obtain ⟨dir, hd⟩ := hd
      exact .inl ⟨dir, hd, fun f hf => absurd (h.entry_eq_none hd f) hf⟩
    · exact .inr ⟨fun dir hc => hd ⟨dir, hc⟩, h.no_up⟩

theorem Orderly.tidy (h : s.Orderly d) (hd : d.directoryAt s.root = .ok dir) : s.Tidy d dir := by
  rcases h with ⟨dir', ht⟩ | h
  · obtain rfl := Except.ok.inj (ht.root.symm.trans hd)
    exact ht
  · exact absurd hd (h.root dir)

/-- In a tidy store, nothing stands in the way of an entry that can be named. -/
theorem Tidy.replaceable (h : s.Tidy d dir) {f : String} (hf : s.root.entryFault? f = none) :
    d.Replaceable s.root dir f := by
  refine ⟨hf, ?_⟩
  intro hc
  exact (h.entry f (by rw [hc]; simp)).2.not_directory hc

theorem Tidy.exists?_iff (h : s.Tidy d dir) {f : String} (hf : IsEntryName f) :
    d.exists? (s.root.join f) = .ok true ↔ d.node? (f :: dir) ≠ none := by
  rw [exists?_join_eq_ok_iff h.root hf, ← Option.isSome_iff_ne_none, @eq_comm _ true]
  constructor
  · exact And.right
  · intro hnode
    exact ⟨(h.entry f (Option.isSome_iff_ne_none.mp hnode)).2.fits, hnode⟩

/-- Files that can be named keep a store tidy. -/
theorem Tidy.patched {ps : Patches} (h : s.Tidy d dir) (hp : d.Patched dir ps d')
    (hmem : ∀ f c, ps.lookup f = some c → IsEntryName f ∧ s.root.entryFault? f = none) :
    s.Tidy d' dir := by
  refine ⟨hp.directoryAt h.root, ?_⟩
  intro f hf
  cases hl : ps.lookup f with
  | none =>
    rw [hp.entry_of_not_mem hl] at hf
    obtain ⟨hname, hr⟩ := h.entry f hf
    exact ⟨hname, hp.replaceable_iff.mpr hr⟩
  | some c =>
    obtain ⟨hname, hfits⟩ := hmem f c hl
    refine ⟨hname, hfits, ?_⟩
    rw [hp.entry_of_lookup hl]
    cases c <;> simp

/-- **An orderly store stays orderly**, whatever an operation leads to. -/
theorem Orderly.touches (h : s.Orderly d) (ht : s.Touches fs d d') : s.Orderly d' := by
  rcases ht with rfl | rfl | ⟨dir, ps, hd, hp, hmem⟩
  · exact h
  · exact h.rooted
  · exact .inl ⟨dir, (h.rooted.tidy hd).patched hp fun f c hl => (hmem f c hl).2⟩

theorem Writable.of_mem_files (h : s.Writable d dir name) {f : String}
    (hf : f ∈ s.files name) : d.Replaceable s.root dir f := by
  simp only [files, List.mem_cons, List.not_mem_nil, or_false] at hf
  rcases hf with rfl | rfl | rfl
  · exact h.driver
  · exact h.sdf
  · exact h.document

/-- Patches of all three files of a preset that can be written. -/
theorem Writable.mem_files (hs : s.settings.SlashFree) (hn : PresetName.IsValid name)
    (h : s.Writable d dir name) {driver sdf document k : Option ByteArray}
    {f : String} (hl : List.lookup f [(s.documentFile name, document), (s.sdfFile name, sdf),
      (s.driverFile name, driver)] = some k) :
    f ∈ s.files name ∧ IsEntryName f ∧ s.root.entryFault? f = none := by
  have hmem := mem_of_lookup hl
  simp only [List.mem_cons, Prod.mk.injEq, List.not_mem_nil, or_false] at hmem
  rcases hmem with ⟨rfl, -⟩ | ⟨rfl, -⟩ | ⟨rfl, -⟩
  · exact ⟨s.documentFile_mem_files name, isEntryName_documentFile hs hn, h.document.fits⟩
  · exact ⟨s.sdfFile_mem_files name, isEntryName_sdfFile hs hn, h.sdf.fits⟩
  · exact ⟨s.driverFile_mem_files name, isEntryName_driverFile hs hn, h.driver.fits⟩

/-! ## Listing -/

/-- The store, asked for the names of its presets, answers with `name` among them. -/
def Lists (s : Store) (d : Disk) (name : String) : Prop :=
  ∃ names, s.list.Yields d names d ∧ name ∈ names

/-- What is listed comes from the entries of the store's directory. -/
theorem lists_iff_entries : s.Lists d name ↔ ∃ entries, d.list s.root = .ok entries ∧
    ∃ file ∈ entries, s.nameForDocument (s.root.join file) = some name := by
  constructor
  · rintro ⟨names, hy, hmem⟩
    obtain ⟨-, ⟨-, rfl⟩ | ⟨entries, hentries, rfl⟩⟩ := list_yields_iff.mp hy
    · exact absurd hmem (by simp)
    · exact ⟨entries, hentries, mem_inventory.mp hmem⟩
  · rintro ⟨entries, hentries, hmem⟩
    exact ⟨s.inventory entries, list_yields_iff.mpr ⟨rfl, .inr ⟨entries, hentries, rfl⟩⟩,
      mem_inventory.mpr hmem⟩

/-- A store without a path lists nothing, although its files are in the working directory. -/
theorem Lists.root_ne_empty (h : s.Lists d name) : s.root.text ≠ "" := by
  intro hroot
  obtain ⟨names, hy, hmem⟩ := h
  rw [(hy.unique (list_of_no_root hroot d)).1] at hmem
  exact absurd hmem (by simp)

/-- A listed preset has a document in the store's directory. -/
theorem Tidy.document_of_lists (h : s.Tidy d dir) (hl : s.Lists d name) :
    PresetName.IsValid name ∧ d.node? (s.documentFile name :: dir) ≠ none := by
  obtain ⟨entries, hentries, file, hfile, hname⟩ := lists_iff_entries.mp hl
  unfold Disk.list at hentries
  split at hentries
  · exact absurd hentries (by simp)
  · exact absurd hentries (by simp)
  · next place hfind =>
    obtain rfl := Except.ok.inj (h.root.symm.trans (directoryAt_of_find hfind))
    obtain rfl := Except.ok.inj hentries
    have hnode := mem_children.mp hfile
    obtain ⟨rfl, hv⟩ := (nameForDocument_join (h.entry file hnode).1).mp hname
    exact ⟨hv, hnode⟩

/-- Where the store's directory can be named, each document in it is listed. -/
theorem lists_of_document (hs : s.settings.SlashFree) (hne : s.root.text ≠ "")
    (hd : d.directoryAt s.root = .ok dir) (hv : PresetName.IsValid name)
    (hr : d.Replaceable s.root dir (s.documentFile name))
    (hn : d.node? (s.documentFile name :: dir) ≠ none) : s.Lists d name := by
  have hf := isEntryName_documentFile hs hv
  have husable := Path.fault?_of_entryFault? hf hne hr.fits
  rw [lists_iff_entries, Disk.list, find_of_directoryAt husable hd]
  exact ⟨_, rfl, s.documentFile name, mem_children.mpr hn, (nameForDocument_join hf).mpr ⟨rfl, hv⟩⟩

/-- Nothing is listed where the directory is not there. -/
theorem Absent.not_lists (h : s.Absent d) : ¬ s.Lists d name := by
  intro hl
  obtain ⟨entries, hentries, -⟩ := lists_iff_entries.mp hl
  unfold Disk.list at hentries
  split at hentries
  · exact absurd hentries (by simp)
  · exact absurd hentries (by simp)
  · next place hfind => exact h.root place (directoryAt_of_find hfind)

end Store

end FractalShader
