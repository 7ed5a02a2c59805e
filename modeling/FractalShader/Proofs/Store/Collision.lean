import FractalShader.Proofs.Store.Regeneration

/-!
# What the check for collisions refuses

Before fragments are written, the name is checked with two manipulations of text:
`SDF` is dropped from its end, where what is left can be used as a name, and
appended to it.  Yet the check speaks of all names: whenever it can ask the disk,
it refuses a name exactly when another preset has a document and a fragment under
the same path.

* `SharesFragment` — two names with a fragment under one path; only a name with
  `SDF` appended shares one (`sharesFragment_iff`);
* `Obstructed` — another preset has a document and shares a fragment;
* `checkCollision_yields_iff_not_obstructed` — the check lets every other name
  pass;
* `Guarded` — an answer that is a refusal of a name exactly for what is obstructed;
* `StoppedByCheck` — an action that makes the check and can then be stopped by the
  disk alone;
* `guarded_of_probes` — the answers of all operations that write fragments.
-/

namespace FractalShader.Store

open FractalShader.Action FractalShader.Disk

variable {α : Type} {s : Store} {d d' : Disk} {name m : String}

/-! ## Fragments under one path -/

/-- The paths of the driver and of the distance fragment of the preset `name`. -/
def fragmentPaths (s : Store) (name : String) : List Path :=
  [(s.artifacts name).driver, (s.artifacts name).sdf]

/-- A fragment of `name` and one of `m` have the same path, component by component. -/
def SharesFragment (s : Store) (name m : String) : Prop :=
  ∃ p ∈ s.fragmentPaths name, ∃ q ∈ s.fragmentPaths m, p.components = q.components

theorem sharesFragment_iff_files (hs : s.settings.SlashFree) (hn : PresetName.IsValid name)
    (hm : PresetName.IsValid m) :
    s.SharesFragment name m ↔ ∃ f ∈ s.fragments name, f ∈ s.fragments m := by
  have hpaths : ∀ n, s.fragmentPaths n = (s.fragments n).map s.root.join := fun _ => rfl
  have hentry : ∀ {n}, PresetName.IsValid n → ∀ f ∈ s.fragments n, IsEntryName f := fun hv f hf =>
    isEntryName_of_mem_files hs hv f (mem_files_of_mem_fragments hf)
  simp only [SharesFragment, hpaths, List.mem_map, exists_exists_and_eq_and]
  constructor
  · rintro ⟨f, hf, g, hg, heq⟩
    rw [Path.components_join_inj (hentry hn f hf) (hentry hm g hg)] at heq
    exact ⟨f, hf, heq ▸ hg⟩
  · rintro ⟨f, hf, hf'⟩
    exact ⟨f, hf, f, hf', rfl⟩

/-- Two names share a fragment exactly when one is the other with `SDF` appended. -/
theorem sharesFragment_iff (hs : s.settings.SlashFree) (hn : PresetName.IsValid name)
    (hm : PresetName.IsValid m) (hne : m ≠ name) :
    s.SharesFragment name m ↔ name = Fragment.sdfStem m ∨ m = Fragment.sdfStem name := by
  rw [sharesFragment_iff_files hs hn hm]
  simp only [fragments, List.mem_cons, List.not_mem_nil, or_false]
  constructor
  · rintro ⟨f, rfl | rfl, hf⟩
    · rcases hf with hf | hf
      · exact absurd (driverFile_inj.mp hf).symm hne
      · exact .inl (driverFile_eq_sdfFile.mp hf)
    · rcases hf with hf | hf
      · exact .inr (driverFile_eq_sdfFile.mp hf.symm)
      · exact absurd (sdfFile_inj.mp hf).symm hne
  · rintro (h | h)
    · exact ⟨s.driverFile name, .inl rfl, .inr (driverFile_eq_sdfFile.mpr h)⟩
    · exact ⟨s.sdfFile name, .inr rfl, .inl (driverFile_eq_sdfFile.mpr h).symm⟩

/-- A name with `SDF` appended is another name, and it shares a fragment. -/
theorem sharesFragment_of_sdfStem (hs : s.settings.SlashFree) (hn : PresetName.IsValid name)
    (hm : PresetName.IsValid m) (h : name = Fragment.sdfStem m ∨ m = Fragment.sdfStem name) :
    m ≠ name ∧ s.SharesFragment name m := by
  have hne : m ≠ name := by
    rcases h with rfl | rfl
    · exact (sdfStem_ne m).symm
    · exact sdfStem_ne name
  exact ⟨hne, (sharesFragment_iff hs hn hm hne).mpr h⟩

/-! ## The check -/

/-- Another preset has a document and a fragment under the path of a fragment of `name`. -/
def Obstructed (s : Store) (d : Disk) (name : String) : Prop :=
  ∃ m, PresetName.IsValid m ∧ m ≠ name ∧ d.exists? (s.documentPath m) = .ok true ∧
    s.SharesFragment name m

/-- Whether the other presets that would share a fragment with `name` have documents can be asked
of the disk. -/
def Probes (s : Store) (d : Disk) (name : String) : Prop :=
  ∀ m, PresetName.IsValid m → m ≠ name → s.SharesFragment name m →
    ∃ b, d.exists? (s.documentPath m) = .ok b

/-- Where the disk can be asked, the check fails only to refuse the name. -/
theorem checkCollision_fails_of_probes (hs : s.settings.SlashFree) (hv : PresetName.IsValid name)
    (hprobes : s.Probes d name) {e : PresetError} (h : (s.checkCollision name).Fails d e d') :
    ∃ fault, e = .invalidName name fault := by
  obtain ⟨m, hm, hpartner, ⟨-, hrefused⟩ | hfail⟩ := checkCollision_fails hv h
  · exact hrefused
  · exfalso
    obtain ⟨hne, hshares⟩ := sharesFragment_of_sdfStem hs hv hm hpartner
    obtain ⟨b, hb⟩ := hprobes m hm hne hshares
    exact ((hasDocument_yields_iff hm).mpr hb).not_fails hfail

/-- **The check is sound and complete.**  Where the disk can be asked, it lets exactly those names
pass with which no preset that has a document shares a fragment. -/
theorem checkCollision_yields_iff_not_obstructed (hs : s.settings.SlashFree)
    (hv : PresetName.IsValid name) (hprobes : s.Probes d name) :
    (s.checkCollision name).Yields d () d ↔ ¬ s.Obstructed d name := by
  rw [checkCollision_yields_iff hv]
  constructor
  · rintro ⟨hbase, hstem⟩ ⟨m, hm, hne, hdocument, hshares⟩
    have habsent : d.exists? (s.documentPath m) = .ok false := by
      rcases (sharesFragment_iff hs hv hm hne).mp hshares with h | rfl
      · exact hbase m h hm
      · exact hstem
    rw [habsent] at hdocument
    exact absurd hdocument (by simp)
  · intro h
    have habsent : ∀ m, PresetName.IsValid m →
        (name = Fragment.sdfStem m ∨ m = Fragment.sdfStem name) →
          d.exists? (s.documentPath m) = .ok false := by
      intro m hm hpartner
      obtain ⟨hne, hshares⟩ := sharesFragment_of_sdfStem hs hv hm hpartner
      obtain ⟨b, hb⟩ := hprobes m hm hne hshares
      cases b with
      | true => exact absurd ⟨m, hm, hne, hb, hshares⟩ h
      | false => exact hb
    refine ⟨?_, habsent _ hv.sdfStem (.inr rfl)⟩
    intro base hname hbase
    exact habsent base hbase (.inl hname)

/-! ## Operations that make the check -/

/-- On `d`, the action fails as the check of `name` does, and after the check it can be stopped by
the disk alone. -/
structure StoppedByCheck (s : Store) (d : Disk) (name : String) (x : Action α) : Prop where
  refused : ∀ e d', (s.checkCollision name).Fails d e d' → ∃ d'', x.Fails d e d''
  passed : (s.checkCollision name).Yields d () d → ∀ e d', x.Fails d e d' → e.IsIo

section StoppedByCheck

variable {β : Type} {x : Action α} {f : α → Action β}

theorem stoppedByCheck_checkCollision (s : Store) (d : Disk) (name : String) :
    s.StoppedByCheck d name (s.checkCollision name) :=
  ⟨fun _ d' h => ⟨d', h⟩, fun hy _ _ h => (hy.not_fails h).elim⟩

/-- What succeeds and leaves the disk as it is may stand before. -/
theorem StoppedByCheck.after {a : α} (hx : x.Yields d a d) (hf : s.StoppedByCheck d name (f a)) :
    s.StoppedByCheck d name (x >>= f) := by
  constructor
  · intro e d' h
    obtain ⟨d'', hfail⟩ := hf.refused e d' h
    exact ⟨d'', fails_bind.mpr (.inr ⟨a, d, hx, hfail⟩)⟩
  · intro hy e d' h
    rcases fails_bind.mp h with h | ⟨a', d₁, hx', h⟩
    · exact (hx.not_fails h).elim
    · obtain ⟨rfl, rfl⟩ := Yields.unique hx hx'
      exact hf.passed hy e d' h

/-- What the disk alone can stop may follow. -/
theorem StoppedByCheck.bind (hx : s.StoppedByCheck d name x)
    (hf : ∀ a d', x.Yields d a d' → (f a).FailsOnDisk) : s.StoppedByCheck d name (x >>= f) := by
  constructor
  · intro e d' h
    obtain ⟨d'', hfail⟩ := hx.refused e d' h
    exact ⟨d'', fails_bind.mpr (.inl hfail)⟩
  · intro hy e d' h
    rcases fails_bind.mp h with h | ⟨a, d₁, hya, h⟩
    · exact hx.passed hy e d' h
    · exact hf a d₁ hya d₁ e d' h

end StoppedByCheck

theorem stoppedByCheck_writeFragments (hv : PresetName.IsValid name) (driver sdf : String) :
    s.StoppedByCheck d name (s.writeFragments name driver sdf) := by
  unfold writeFragments
  refine .after (yields_of.mpr ⟨s.paths_of_isValid hv, rfl⟩) ?_
  refine (stoppedByCheck_checkCollision s d name).bind fun _ _ _ => ?_
  exact s.failsOnDisk_replacement name driver sdf (s.artifacts name)

theorem stoppedByCheck_publish {c : Config} (hv : PresetName.IsValid c.name)
    (hknown : c.hasUnknown = false) (strict : Bool) :
    s.StoppedByCheck d c.name (s.publish c strict) := by
  obtain ⟨g, hg⟩ := Fragment.generate_ok_iff.mpr fun _ : strict = true => hknown
  unfold publish
  simp only [hknown, Bool.false_eq_true, if_false]
  refine .after (generate_of_ok hg) ?_
  refine (stoppedByCheck_writeFragments hv g.driver g.sdf).bind fun _ _ _ => ?_
  exact (s.failsOnDisk_save hv hknown).bind fun _ =>
    (failsOnDisk_emit _).bind fun _ => failsOnDisk_pure _

theorem stoppedByCheck_regenerate {c : Config} {strict : Bool}
    (hread : (s.readDocument name).Yields d c d') (hknown : strict = true → c.hasUnknown = false) :
    s.StoppedByCheck d name (s.regenerate name strict) := by
  obtain ⟨hv, -⟩ := readDocument_yields_iff.mp hread
  obtain rfl := (s.readsOnly_readDocument name).disk_eq hread
  obtain ⟨g, hg⟩ := Fragment.generate_ok_iff.mpr hknown
  unfold regenerate
  refine .after hread (.after (generate_of_ok hg) ?_)
  refine (stoppedByCheck_writeFragments hv g.driver g.sdf).bind fun _ _ _ => ?_
  exact (failsOnDisk_emit _).bind fun _ => failsOnDisk_pure _

/-! ## Exactly what is refused -/

/-- The answer `r` is the refusal of a name exactly where `name` is obstructed, and the name that is
refused is `name` itself. -/
structure Guarded (s : Store) (d : Disk) (name : String) (r : Except PresetError α) : Prop where
  refused_iff : (∃ m fault, r = .error (.invalidName m fault)) ↔ s.Obstructed d name
  refused_name : ∀ m fault, r = .error (.invalidName m fault) → m = name

theorem StoppedByCheck.guarded {x : Action α} (h : s.StoppedByCheck d name x)
    (hs : s.settings.SlashFree) (hv : PresetName.IsValid name) (hprobes : s.Probes d name) :
    s.Guarded d name (x.run d).result := by
  have hpasses := checkCollision_yields_iff_not_obstructed hs hv hprobes
  -- what the check lets pass is not refused for its name, and all else is refused for its own
  have hcases : (∃ fault, (x.run d).result = .error (.invalidName name fault)) ∧ s.Obstructed d name
      ∨ (∀ m fault, (x.run d).result ≠ .error (.invalidName m fault)) ∧ ¬ s.Obstructed d name := by
    rcases (s.checkCollision name).yields_or_fails d with ⟨_, hy⟩ | ⟨e, hfail⟩
    · rw [s.readsOnly_checkCollision name d] at hy
      refine .inr ⟨?_, hpasses.mp hy⟩
      intro m fault hr
      exact h.passed hy _ _ ⟨hr, rfl⟩
    · obtain ⟨fault, rfl⟩ := checkCollision_fails_of_probes hs hv hprobes hfail
      obtain ⟨_, hx⟩ := h.refused _ _ hfail
      refine .inl ⟨⟨fault, hx.1⟩, ?_⟩
      by_contra hclear
      exact (hpasses.mpr hclear).not_fails hfail
  rcases hcases with ⟨⟨fault, hr⟩, hobstructed⟩ | ⟨hr, hclear⟩
  · refine ⟨iff_of_true ⟨name, fault, hr⟩ hobstructed, ?_⟩
    intro m fault' hr'
    rw [hr] at hr'
    cases hr'
    rfl
  · refine ⟨iff_of_false ?_ hclear, ?_⟩
    · rintro ⟨m, fault, hm⟩
      exact hr m fault hm
    · intro m fault hm
      exact absurd hm (hr m fault)

/-- **Exactly which names are refused.**  With extensions that hold no slash, for every name that
can be used, on every disk that can be asked for the documents of the presets with which it would
share a fragment: to write fragments, to publish a configuration without unknown kinds, and to
regenerate a preset that can be read (without unknown kinds, when this is strict) is refused for
the name exactly when another preset has a document and a fragment under the path of one of its
own. -/
theorem guarded_of_probes (hs : s.settings.SlashFree) (hv : PresetName.IsValid name)
    (hprobes : s.Probes d name) :
    (∀ driver sdf, s.Guarded d name ((s.writeFragments name driver sdf).run d).result) ∧
      (∀ c strict, c.name = name → c.hasUnknown = false →
        s.Guarded d name ((s.publish c strict).run d).result) ∧
      ∀ c strict d', (s.readDocument name).Yields d c d' →
        (strict = true → c.hasUnknown = false) →
          s.Guarded d name ((s.regenerate name strict).run d).result := by
  refine ⟨?_, ?_, ?_⟩
  · intro driver sdf
    exact (stoppedByCheck_writeFragments hv driver sdf).guarded hs hv hprobes
  · rintro c strict rfl hknown
    exact (stoppedByCheck_publish hv hknown strict).guarded hs hv hprobes
  · intro c strict d' hread hknown
    exact (stoppedByCheck_regenerate hread hknown).guarded hs hv hprobes

/-- After `Foo` was published, `FooSDF` is refused for its name. -/
theorem guarded_fooSDF :
    ∃ d, d = ((publish ⟨⟨"shaders"⟩, default⟩ ⟨"Foo", [.boxFold], .box⟩ true).run
        (Disk.empty ["scratch"])).disk ∧
      Probes ⟨⟨"shaders"⟩, default⟩ d "FooSDF" ∧ Obstructed ⟨⟨"shaders"⟩, default⟩ d "FooSDF" ∧
      ∃ fault, ((publish ⟨⟨"shaders"⟩, default⟩ ⟨"FooSDF", [], .sphere⟩ true).run d).result =
        .error (.invalidName "FooSDF" fault) := by
  have hs := Settings.plain_default.slashFree
  have hfoo : PresetName.IsValid "Foo" := by decide
  have hfooSDF : PresetName.IsValid "FooSDF" := by decide
  have hprobes : Probes ⟨⟨"shaders"⟩, default⟩ ((publish ⟨⟨"shaders"⟩, default⟩
      ⟨"Foo", [.boxFold], .box⟩ true).run (Disk.empty ["scratch"])).disk "FooSDF" := by
    intro m hm hne hshares
    rcases (sharesFragment_iff hs hfooSDF hm hne).mp hshares with h | rfl
    · obtain rfl : "Foo" = m := sdfStem_inj.mp h
      exact ⟨_, rfl⟩
    · exact ⟨_, rfl⟩
  have hobstructed : Obstructed ⟨⟨"shaders"⟩, default⟩ ((publish ⟨⟨"shaders"⟩, default⟩
      ⟨"Foo", [.boxFold], .box⟩ true).run (Disk.empty ["scratch"])).disk "FooSDF" :=
    ⟨"Foo", hfoo, by decide, rfl, (sharesFragment_of_sdfStem hs hfooSDF hfoo (.inl rfl)).2⟩
  obtain ⟨-, hpublish, -⟩ := guarded_of_probes hs hfooSDF hprobes
  have hguarded := hpublish ⟨"FooSDF", [], .sphere⟩ true rfl rfl
  obtain ⟨m, fault, hr⟩ := hguarded.refused_iff.mpr hobstructed
  obtain rfl := hguarded.refused_name m fault hr
  exact ⟨_, rfl, hprobes, hobstructed, fault, hr⟩

end FractalShader.Store
