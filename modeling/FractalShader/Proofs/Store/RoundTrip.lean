import FractalShader.Proofs.Store.Stored

/-!
# Publishing and loading

What is published on any disk is loaded again as it was, nothing else is
changed, and publishing it once more changes nothing at all.

* `PresetWritten.place` — the places that a publication may change;
* `publish_round_trip` — all of it, for every disk and configuration.
-/

namespace FractalShader.Store

open FractalShader.Action FractalShader.Disk

variable {s : Store} {d d' : Disk} {dir : Place}

/-- A publication changes the three files of its preset and makes directories on the way to
them; every other place is as it was. -/
theorem PresetWritten.place (hs : s.settings.SlashFree) {c : Config} {g : Generated}
    (h : s.PresetWritten d dir c g d') (q : Place) :
    d'.node? q = d.node? q ∨
      (∃ path ∈ [(s.artifacts c.name).driver, (s.artifacts c.name).sdf,
        (s.artifacts c.name).document], ∃ x, d'.find path = .ok (q, x)) ∨
      (d.node? q = none ∧ d'.node? q = some .directory ∧
        ∃ a ∈ s.root.ancestors, d'.directoryAt a = .ok q) := by
  have hd' := h.patched.directoryAt h.root
  have hfind : ∀ file text, IsEntryName file → (s.rooted d).Replaceable s.root dir file →
      d'.node? (file :: dir) = some (.file text) →
      d'.find (s.root.join file) = .ok (file :: dir, .file text) := by
    intro file text hf hr hn
    rw [find_join hd' hf, hr.fits, hn]
  rcases h.patched.node?_eq_or q with hq | ⟨f, k, rfl, hl⟩
  · -- no entry that was written: at most a directory that was made
    rw [hq]
    rcases (made_rooted s d).place q with hq' | ⟨hn, hdir, a, ha, hled⟩
    · exact .inl hq'
    · exact .inr (.inr ⟨hn, hdir, a, ha, directoryAt_keeps h.patched.keeps hled⟩)
  · refine .inr (.inl ?_)
    have hentry := h.patched.entry_of_lookup hl
    have hmem := mem_of_lookup hl
    simp only [List.mem_cons, Prod.mk.injEq, List.not_mem_nil, or_false] at hmem
    rcases hmem with ⟨rfl, rfl⟩ | ⟨rfl, rfl⟩ | ⟨rfl, rfl⟩
    · have hname := isEntryName_documentFile hs h.valid
      exact ⟨_, by simp [artifacts, documentPath], _, hfind _ _ hname h.writable.document hentry⟩
    · have hname := isEntryName_sdfFile hs h.valid
      exact ⟨_, by simp [artifacts], _, hfind _ _ hname h.writable.sdf hentry⟩
    · have hname := isEntryName_driverFile hs h.valid
      exact ⟨_, by simp [artifacts], _, hfind _ _ hname h.writable.driver hentry⟩

/-- **Publishing and loading agree.**  Whatever the disk holds, after a configuration has been
published: its three files hold its fragments and its document; it is read and loaded again as it
was, and gives the same fragments again; every place but these files is as before, except for
directories made on the way to the store; and to regenerate or publish it once more, where that
succeeds, changes nothing. -/
theorem publish_round_trip (s : Store) (hs : s.settings.SlashFree) (c : Config) (strict : Bool)
    (d d' : Disk) (p : Published) (h : (s.publish c strict).Yields d p d') :
    s.paths c.name = .ok p.paths ∧
    d'.readFile p.paths.driver = .ok p.generated.driver.toUTF8 ∧
    d'.readFile p.paths.sdf = .ok p.generated.sdf.toUTF8 ∧
    d'.readFile p.paths.document = .ok (Document.ofConfig c).encode.toUTF8 ∧
    (s.readDocument c.name).Yields d' c d' ∧
    (s.load c.name).Yields d' (some c) d' ∧
    (∀ strict', Fragment.generate c s.settings strict' = .ok p.generated) ∧
    d'.home = d.home ∧
    (∀ q, d'.node? q = d.node? q ∨
      (∃ path ∈ [p.paths.driver, p.paths.sdf, p.paths.document], ∃ x, d'.find path = .ok (q, x)) ∨
      (d.node? q = none ∧ d'.node? q = some .directory ∧
        ∃ a ∈ s.root.ancestors, d'.directoryAt a = .ok q)) ∧
    (∀ strict' p' d'', (s.regenerate c.name strict').Yields d' p' d'' ∨
      (s.publish c strict').Yields d' p' d'' → ∀ q, d''.node? q = d'.node? q) := by
  obtain ⟨hpaths, hg, dir, hw⟩ := publish_yields hs h
  have hstored : s.Stored d' dir c p.generated := hw.stored hg
  rw [hpaths]
  refine ⟨s.paths_of_isValid hw.valid, hstored.driver_content hs, hstored.sdf_content hs,
    hstored.document_content hs, hstored.readDocument hs, hstored.load hs, hstored.generated,
    ?_, hw.place hs, ?_⟩
  · exact hw.patched.home.trans (made_rooted s d).home
  · rintro strict' p' d'' (hy | hy) q
    · exact hstored.unchanged_of_regenerate hs hy q
    · exact hstored.unchanged_of_publish hs hy q

/-- On an empty disk, a first publication into a directory that is yet to be made. -/
theorem publish_round_trip_first :
    ∃ p d', (publish ⟨⟨"shaders"⟩, default⟩ ⟨"Foo", [.boxFold, .rotXFold], .box⟩ true).Yields
        (Disk.empty ["scratch"]) p d' ∧
      d'.readFile ⟨"shaders/Foo.ush"⟩ = .ok p.generated.driver.toUTF8 ∧
      (load ⟨⟨"shaders"⟩, default⟩ "Foo").Yields d'
        (some ⟨"Foo", [.boxFold, .rotXFold], .box⟩) d' := by
  have hok : ((publish ⟨⟨"shaders"⟩, default⟩ ⟨"Foo", [.boxFold, .rotXFold], .box⟩ true).run
      (Disk.empty ["scratch"])).result.isOk = true := rfl
  rcases yields_or_fails (publish ⟨⟨"shaders"⟩, default⟩ ⟨"Foo", [.boxFold, .rotXFold], .box⟩ true)
    (Disk.empty ["scratch"]) with ⟨p, hy⟩ | ⟨e, hfail⟩
  · obtain ⟨hpaths, hdriver, -, -, -, hload, -⟩ :=
      publish_round_trip ⟨⟨"shaders"⟩, default⟩ Settings.plain_default.slashFree
        ⟨"Foo", [.boxFold, .rotXFold], .box⟩ true _ _ p hy
    have hp : p.paths.driver = ⟨"shaders/Foo.ush"⟩ := by
      rw [← Except.ok.inj hpaths]
      rfl
    exact ⟨p, _, hy, hp ▸ hdriver, hload⟩
  · rw [hfail.1] at hok
    exact nomatch hok

end FractalShader.Store
