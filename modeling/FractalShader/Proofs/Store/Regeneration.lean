import FractalShader.Proofs.Store.Exclusion

/-!
# When a preset can be regenerated

A regeneration reads the document, generates, checks that no preset with which it would
share a fragment has a document, and replaces both fragments.  So whether it succeeds
depends on documents and directories alone, and these no regeneration changes: one that
can be made can still be made after any others, and gives the same fragments.

* `checkCollision_yields_iff`, `checkCollision_yields_iff_neighbours` — when a name passes
  the check for collisions;
* `Regenerable`, `Regenerable.yields`, `regenerate_yields_iff` — when a regeneration
  succeeds, and what it writes then;
* `Regenerable.congr` — what it depends on;
* `node?_regenerate_of_documented` — the fragments of a preset that has a document are
  left alone by the regeneration of any other;
* `Regenerable.regenerate` — nor does that stand in the way of its own.
-/

namespace FractalShader

open FractalShader.Action FractalShader.Disk

namespace Store

variable {s : Store} {d d' : Disk} {dir : Place} {name m : String} {strict : Bool} {g : Generated}

/-! ## The check for collisions -/

theorem hasDocument_yields_iff {b : Bool} (hv : PresetName.IsValid name) :
    (s.hasDocument name).Yields d b d ↔ d.exists? (s.documentPath name) = .ok b := by
  constructor
  · intro h
    exact (hasDocument_yields h).2.1
  · intro h
    rw [hasDocument, yields_bind]
    refine ⟨s.artifacts name, d, yields_of.mpr ⟨s.paths_of_isValid hv, rfl⟩, ?_⟩
    exact yields_ask.mpr ⟨h, rfl⟩

/-- A name passes when the presets with which it would share a fragment have no documents. -/
theorem checkCollision_yields_iff (hv : PresetName.IsValid name) :
    (s.checkCollision name).Yields d () d ↔
      (∀ base, name = Fragment.sdfStem base → PresetName.IsValid base →
        d.exists? (s.documentPath base) = .ok false) ∧
      d.exists? (s.documentPath (Fragment.sdfStem name)) = .ok false := by
  constructor
  · intro h
    obtain ⟨hbase, hstem⟩ := checkCollision_yields h
    refine ⟨?_, (hasDocument_yields_iff hv.sdfStem).mp hstem⟩
    intro base hname hb
    exact (hasDocument_yields_iff hb).mp (hbase base hname hb)
  · rintro ⟨hbase, hstem⟩
    rw [checkCollision_eq, refuseBeside_yields_iff]
    refine ⟨rfl, ?_⟩
    rintro ⟨m, fault⟩ hm
    rcases mem_partners.mp hm with ⟨hname, hb, -⟩ | ⟨rfl, -⟩
    · exact (hasDocument_yields_iff hb).mpr (hbase m hname hb)
    · exact (hasDocument_yields_iff hv.sdfStem).mpr hstem

/-- In other words: when no neighbour has a document. -/
theorem checkCollision_yields_iff_neighbours (hv : PresetName.IsValid name) :
    (s.checkCollision name).Yields d () d ↔
      ∀ m, PresetName.IsValid m → Neighbours name m → d.exists? (s.documentPath m) = .ok false := by
  rw [checkCollision_yields_iff hv]
  constructor
  · rintro ⟨hbase, hstem⟩ m hm (hname | rfl)
    · exact hbase m hname hm
    · exact hstem
  · intro h
    exact ⟨fun base hname hb => h base hb (.inl hname), h _ hv.sdfStem (.inr rfl)⟩

/-- The check looks at the documents of the neighbours only. -/
theorem checkCollision_yields_congr (hv : PresetName.IsValid name)
    (hfind : ∀ m, PresetName.IsValid m → Neighbours name m →
      d'.find (s.documentPath m) = d.find (s.documentPath m))
    (h : (s.checkCollision name).Yields d () d) : (s.checkCollision name).Yields d' () d' := by
  refine (checkCollision_yields_iff_neighbours hv).mpr fun m hm hn => ?_
  rw [exists?, hfind m hm hn]
  exact (checkCollision_yields_iff_neighbours hv).mp h m hm hn

/-! ## Success -/

/-- The preset `name` can be regenerated in the directory `dir`, and its fragments will be `g`. -/
structure Regenerable (s : Store) (strict : Bool) (d : Disk) (dir : Place) (name : String)
    (g : Generated) : Prop where
  root : d.directoryAt s.root = .ok dir
  generated : ∃ c, (s.readDocument name).Yields d c d ∧
    Fragment.generate c s.settings strict = .ok g
  separate : (s.checkCollision name).Yields d () d
  driver : d.Replaceable s.root dir (s.driverFile name)
  sdf : d.Replaceable s.root dir (s.sdfFile name)

theorem Regenerable.valid (h : s.Regenerable strict d dir name g) : PresetName.IsValid name := by
  obtain ⟨c, hread, -⟩ := h.generated
  exact (readDocument_yields_iff.mp hread).1

/-- Whether a preset can be regenerated depends on its document, on those of its neighbours, and on
what stands in the way of its fragments. -/
theorem Regenerable.congr (h : s.Regenerable strict d dir name g)
    (hd' : d'.directoryAt s.root = .ok dir)
    (hfind : ∀ m, PresetName.IsValid m → m = name ∨ Neighbours name m →
      d'.find (s.documentPath m) = d.find (s.documentPath m))
    (hdriver : d'.Replaceable s.root dir (s.driverFile name))
    (hsdf : d'.Replaceable s.root dir (s.sdfFile name)) :
    s.Regenerable strict d' dir name g := by
  obtain ⟨c, hread, hg⟩ := h.generated
  exact ⟨hd', ⟨c, readDocument_yields_congr (hfind name h.valid (.inl rfl)) hread, hg⟩,
    checkCollision_yields_congr h.valid (fun m hm hn => hfind m hm (.inr hn)) h.separate,
    hdriver, hsdf⟩

/-- What a regeneration that succeeds answers, and what it leaves behind. -/
theorem Regenerable.yields (hs : s.settings.SlashFree) (h : s.Regenerable strict d dir name g) :
    ∃ d', (s.regenerate name strict).Yields d ⟨s.artifacts name, g⟩ d' ∧ d.Patched dir
      [(s.sdfFile name, some g.sdf.toUTF8), (s.driverFile name, some g.driver.toUTF8)] d' := by
  obtain ⟨c, hread, hg⟩ := h.generated
  rcases (s.writeFragments name g.driver g.sdf).yields_or_fails d with ⟨paths, hwrite⟩ | ⟨e, hfail⟩
  · obtain ⟨rfl, dir', hw⟩ := writeFragments_yields hs hwrite
    obtain ⟨rfl, -, -, hpatched⟩ := hw.of_directoryAt h.root
    refine ⟨_, ?_, hpatched⟩
    rw [regenerate]
    refine yields_bind.mpr ⟨c, d, hread, ?_⟩
    refine yields_bind.mpr ⟨g, d, generate_of_ok hg, ?_⟩
    refine yields_bind.mpr ⟨_, _, hwrite, ?_⟩
    exact yields_bind.mpr ⟨(), _, yields_emit.mpr rfl, yields_pure.mpr ⟨rfl, rfl⟩⟩
  · exact absurd hfail
      (writeFragments_not_fails hs h.valid h.separate h.root h.driver h.sdf)

/-- **When a preset can be regenerated.** -/
theorem regenerate_yields_iff (hs : s.settings.SlashFree) (hd : d.directoryAt s.root = .ok dir) :
    (∃ p d', (s.regenerate name strict).Yields d p d' ∧ p.generated = g) ↔
      s.Regenerable strict d dir name g := by
  constructor
  · rintro ⟨p, d', hy, rfl⟩
    obtain ⟨c, dir', hread, hg, hw⟩ := regenerate_yields hs hy
    obtain ⟨rfl, hdriver, hsdf, -⟩ := hw.of_directoryAt hd
    exact ⟨hd, ⟨c, hread, hg⟩, hw.separate, hdriver, hsdf⟩
  · intro h
    obtain ⟨d', hy, -⟩ := h.yields hs
    exact ⟨_, d', hy, rfl⟩

theorem holdsFragments_of_patched {ps : Patches} (hp : d.Patched dir
    ((s.sdfFile name, some g.sdf.toUTF8) :: (s.driverFile name, some g.driver.toUTF8) :: ps) d') :
    s.HoldsFragments d' dir name g where
  driver := hp.entry_of_written (by
    rw [lookup_cons_patch, if_neg (s.driverFile_ne_sdfFile name), lookup_cons_patch, if_pos rfl])
  sdf := hp.entry_of_written (by rw [lookup_cons_patch, if_pos rfl])

theorem HoldsFragments.patched {ps : Patches} (h : s.HoldsFragments d dir name g)
    (hp : d.Patched dir ps d') (hother : ∀ f ∈ s.fragments name, ps.lookup f = none) :
    s.HoldsFragments d' dir name g where
  driver := by
    rw [hp.entry_of_not_mem (hother _ (by simp [fragments]))]
    exact h.driver
  sdf := by
    rw [hp.entry_of_not_mem (hother _ (by simp [fragments]))]
    exact h.sdf

/-! ## Regenerating another preset -/

/-- **The fragments of a preset that has a document are left alone** by the regeneration of any
other: where the two share a fragment, the other one is refused. -/
theorem node?_regenerate_of_documented (hs : s.settings.Plain) (hd : d.directoryAt s.root = .ok dir)
    (hv : PresetName.IsValid name) (hdocument : d.exists? (s.documentPath name) = .ok true)
    (hne : m ≠ name) (strict : Bool) {f : String} (hf : f ∈ s.fragments name) :
    ((s.regenerate m strict).run d).disk.node? (f :: dir) = d.node? (f :: dir) := by
  by_cases hm : f ∈ s.fragments m
  · rcases disk_regenerate_cases hs.slashFree m strict d with heq | ⟨hvm, hcheck⟩
    · rw [heq]
    · -- the name of the other is this one with `SDF` appended, or the other way round
      exfalso
      obtain ⟨hbase, hstem⟩ := (checkCollision_yields_iff hvm).mp hcheck
      rcases shared_file hs hne (mem_files_of_mem_fragments hm) (mem_files_of_mem_fragments hf) with
        ⟨rfl, -⟩ | ⟨rfl, -⟩
      · rw [hstem] at hdocument
        exact absurd hdocument (by simp)
      · rw [hbase name rfl hv] at hdocument
        exact absurd hdocument (by simp)
  · exact (touches_regenerate hs.slashFree m strict d).node?_eq hd hm

theorem HoldsFragments.regenerate (h : s.HoldsFragments d dir name g) (hs : s.settings.Plain)
    (hd : d.directoryAt s.root = .ok dir) (hv : PresetName.IsValid name)
    (hdocument : d.exists? (s.documentPath name) = .ok true) (hne : m ≠ name) (strict : Bool) :
    s.HoldsFragments ((s.regenerate m strict).run d).disk dir name g where
  driver := by
    rw [node?_regenerate_of_documented hs hd hv hdocument hne strict (by simp [fragments])]
    exact h.driver
  sdf := by
    rw [node?_regenerate_of_documented hs hd hv hdocument hne strict (by simp [fragments])]
    exact h.sdf

/-- Documents are found as before where only fragments were touched. -/
theorem Touches.find_documentPath (hs : s.settings.Plain) (ht : s.Touches (s.fragments m) d d')
    (hd : d.directoryAt s.root = .ok dir) (hv : PresetName.IsValid name) :
    d'.find (s.documentPath name) = d.find (s.documentPath name) :=
  find_join_congr hd (ht.directoryAt hd) (isEntryName_documentFile hs.slashFree hv)
    (ht.node?_eq hd (documentFile_not_mem_fragments_of_plain hs name m))

theorem Touches.replaceable {fs : List String} (ht : s.Touches fs d d')
    (hd : d.directoryAt s.root = .ok dir) {f : String} (hr : d.Replaceable s.root dir f) :
    d'.Replaceable s.root dir f := by
  rcases ht with rfl | rfl | ⟨dir', ps, hd', hp, -⟩
  · exact hr
  · rwa [rooted_of_directoryAt hd]
  · rw [rooted_of_directoryAt hd] at hd' hp
    obtain rfl := Except.ok.inj (hd.symm.trans hd')
    exact hp.replaceable_iff.mpr hr

/-- **A preset that can be regenerated can be regenerated after any other**, with the same
fragments. -/
theorem Regenerable.regenerate (h : s.Regenerable strict d dir name g) (hs : s.settings.Plain)
    (m : String) (strict' : Bool) :
    s.Regenerable strict ((s.regenerate m strict').run d).disk dir name g := by
  have ht := touches_regenerate hs.slashFree m strict' d
  exact h.congr (ht.directoryAt h.root) (fun n hn _ => ht.find_documentPath hs h.root hn)
    (ht.replaceable h.root h.driver) (ht.replaceable h.root h.sdf)

/-- A preset that can be regenerated has a document. -/
theorem Regenerable.exists_document (h : s.Regenerable strict d dir name g) :
    d.exists? (s.documentPath name) = .ok true := by
  obtain ⟨c, hread, -⟩ := h.generated
  obtain ⟨-, ⟨text, _, htext, -⟩, -⟩ := readDocument_yields_iff.mp hread
  obtain ⟨content, hcontent⟩ := readFile_of_readText htext
  obtain ⟨x, hfind⟩ := find_of_readFile hcontent
  rw [exists?, hfind]

/-- Regenerations in a row reach every preset that can be regenerated, however the others end. -/
theorem holdsFragments_of_regenerations (hs : s.settings.Plain) {names : List String}
    (h : s.Regenerable strict d dir name g)
    (hname : name ∈ names ∨ s.HoldsFragments d dir name g) :
    s.HoldsFragments (names.foldl (fun d m => ((s.regenerate m strict).run d).disk) d) dir name
      g := by
  induction names generalizing d with
  | nil => exact hname.resolve_left (by simp)
  | cons m names ih =>
    have hnext := h.regenerate hs m strict
    rw [List.foldl_cons]
    apply ih hnext
    by_cases hm : m = name
    · subst hm
      obtain ⟨d', hy, hp⟩ := h.yields hs.slashFree
      rw [hy.2]
      exact .inr (holdsFragments_of_patched hp)
    · rcases hname with hname | hholds
      · exact .inl ((List.mem_cons.mp hname).resolve_left (Ne.symm hm))
      · exact .inr (hholds.regenerate hs h.root h.valid h.exists_document hm strict)

end Store

end FractalShader
