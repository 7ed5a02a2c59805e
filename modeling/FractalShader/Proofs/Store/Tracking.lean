import FractalShader.Proofs.Store.Removal
import FractalShader.Proofs.Store.Tidy

/-!
# What is published is listed

A publication makes the directory of the store and puts the three files of the preset
into it, so the preset is listed until it is removed.  This holds for every spelling of
the directory but one: a store without a path writes to the working directory, reads
and removes there, and yet lists nothing, because a path without a text cannot be
opened and is taken for a directory that is missing.

* `Tracked` — a preset that is listed until it is removed;
* `Stored.remove_yields` — what is stored can be removed;
* `not_listed_of_remove` — what is removed is not listed;
* `tracked_of_publish_iff` — these after a publication.
-/

namespace FractalShader.Store

open FractalShader.Action FractalShader.Disk

variable {s : Store} {d d' : Disk} {dir : Place} {name : String}

/-- The preset is listed, it can be removed with its three files, and after a removal it is not
listed any more. -/
structure Tracked (s : Store) (d : Disk) (name : String) : Prop where
  listed : s.Lists d name
  removed : ∃ d', (s.remove name).Yields d 3 d'
  dropped : ∀ k d', (s.remove name).Yields d k d' →
    ∃ names, s.list.Yields d' names d' ∧ name ∉ names

/-- A stored preset can be removed, and then its three files are counted. -/
theorem Stored.remove_yields {c : Config} {g : Generated} (h : s.Stored d dir c g)
    (hs : s.settings.SlashFree) : ∃ d', (s.remove c.name).Yields d 3 d' := by
  have hnames := isEntryName_of_mem_files hs h.valid
  have hreplaceable : ∀ f ∈ s.files c.name, d.Replaceable s.root dir f := by
    intro f hf
    obtain ⟨text, hf⟩ := h.holds f hf
    exact hf.replaceable
  have hcount : d.count (s.artifacts c.name).all = 3 := by
    refine List.countP_eq_length.mpr ?_
    rw [all_artifacts, List.forall_mem_map]
    intro f hf
    obtain ⟨text, hholds⟩ := h.holds f hf
    rw [hholds.exists? h.root (hnames f hf)]
  obtain ⟨k, d', heach⟩ := removeEach_of_replaceable (s.files c.name) d h.root hnames hreplaceable
  have hremove : (s.remove c.name).Yields d k d' := remove_yields_iff.mpr ⟨h.valid, heach⟩
  obtain rfl : k = 3 := (cleared_of_remove hs hremove).2.1.trans hcount
  exact ⟨d', hremove⟩

/-- A removed preset is not listed. -/
theorem not_listed_of_remove (hs : s.settings.SlashFree) (hproper : d.Proper) {k : Nat}
    (h : (s.remove name).Yields d k d') : ∃ names, s.list.Yields d' names d' ∧ name ∉ names := by
  obtain ⟨hv, -, hcleared⟩ := cleared_of_remove hs h
  obtain ⟨names, hy, hmem⟩ := list_of_missing_document hs hv
    (hcleared.gone _ (s.documentFile_mem_files name))
  exact ⟨names, hy, hmem (h.2 ▸ s.stepsKeep_proper.removal name d hproper)⟩

/-- **A publication is listed, unless the store has no path.**  Then nothing is listed, although the
preset is loaded from the working directory and removed there. -/
theorem tracked_of_publish_iff (hs : s.settings.SlashFree) (hproper : d.Proper) {c : Config}
    {strict : Bool} {p : Published} (h : (s.publish c strict).Yields d p d') :
    (s.Tracked d' c.name ↔ s.root.text ≠ "") ∧
      (s.root.text = "" → s.list.Yields d' [] d' ∧ (s.load c.name).Yields d' (some c) d' ∧
        ∃ d'', (s.remove c.name).Yields d' 3 d'') := by
  obtain ⟨-, hg, dir, hw⟩ := publish_yields hs h
  have hstored : s.Stored d' dir c p.generated := hw.stored hg
  have hproper' : d'.Proper := h.2 ▸ s.stepsKeep_proper.publish c strict d hproper
  have hremove := hstored.remove_yields hs
  refine ⟨⟨fun ht => ht.listed.root_ne_empty, ?_⟩, ?_⟩
  · intro hroot
    refine ⟨?_, hremove, fun k d'' => not_listed_of_remove hs hproper'⟩
    exact lists_of_document hs hroot hstored.root hstored.valid hstored.document.replaceable
      (by rw [hstored.document.content]; simp)
  · intro hroot
    exact ⟨list_of_no_root hroot d', hstored.load hs, hremove⟩

theorem tracked_of_publish_foo : Settings.SlashFree default ∧ (Disk.empty ["scratch"]).Proper ∧
    ∃ p d', (publish ⟨⟨"./shaders//"⟩, default⟩ ⟨"Foo", [.boxFold], .box⟩ false).Yields
        (Disk.empty ["scratch"]) p d' ∧ Tracked ⟨⟨"./shaders//"⟩, default⟩ d' "Foo" := by
  have hproper : (Disk.empty ["scratch"]).Proper :=
    proper_empty fun name hname => List.mem_singleton.mp hname ▸ by decide
  have hy : (publish ⟨⟨"./shaders//"⟩, default⟩ ⟨"Foo", [.boxFold], .box⟩ false).Yields
      (Disk.empty ["scratch"]) _ _ := ⟨rfl, rfl⟩
  refine ⟨Settings.plain_default.slashFree, hproper, _, _, hy, ?_⟩
  exact (tracked_of_publish_iff Settings.plain_default.slashFree hproper hy).1.mpr (by decide)

/-- A preset that is published to the working directory is there and is not listed. -/
theorem publish_without_root : ∃ p d',
    (publish ⟨⟨""⟩, default⟩ ⟨"Foo", [.boxFold], .box⟩ false).Yields (Disk.empty ["scratch"]) p d' ∧
      d'.exists? ⟨"Foo_Conf.json"⟩ = .ok true ∧ (list ⟨⟨""⟩, default⟩).Yields d' [] d' ∧
      ¬ Tracked ⟨⟨""⟩, default⟩ d' "Foo" := by
  have hy : (publish ⟨⟨""⟩, default⟩ ⟨"Foo", [.boxFold], .box⟩ false).Yields
      (Disk.empty ["scratch"]) _ _ := ⟨rfl, rfl⟩
  exact ⟨_, _, hy, rfl, list_of_no_root rfl _, fun ht => ht.listed.root_ne_empty rfl⟩

end FractalShader.Store
