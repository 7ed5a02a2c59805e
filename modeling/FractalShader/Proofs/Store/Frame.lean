import FractalShader.Proofs.Store.Effects

/-!
# What the operations of a store leave alone

Whatever an operation leads to, it makes at most the directory of the store and
changes at most files of the preset that it is about.

* `Confined` — an action that, where the directory is there, patches some of the
  given entries and nothing else;
* `Touches` — what is left of a disk by an operation that may have to make the
  directory first;
* `touches_publish`, `touches_regenerate`, `touches_save` — the frame of each
  operation, whatever its result;
* `writeFragments_fails_cases` — how fragments can fail to be written;
* `publish_fails` — a publication that fails has changed no document;
* `publish_fails_of_writable`, `regenerate_fails_of_writable` — where its files can
  be written, an operation that fails has changed nothing at all;
* `remove_spec` — how far a removal gets.
-/

namespace FractalShader

open FractalShader.Action FractalShader.Disk

namespace Action

variable {α β : Type} {p : Path} {dir : Place} {fs : List String}

/-- Where `p` leads to the directory `dir`, the action changes at most the entries `fs` of that
directory, and only such as can be named, whatever its result. -/
def Confined (x : Action α) (p : Path) (dir : Place) (fs : List String) : Prop :=
  ∀ d : Disk, d.directoryAt p = .ok dir → ∃ ps, d.Patched dir ps (x.run d).disk ∧
    ∀ f c, ps.lookup f = some c → f ∈ fs ∧ IsEntryName f ∧ p.entryFault? f = none

theorem ReadsOnly.confined {x : Action α} (h : x.ReadsOnly) : x.Confined p dir fs := by
  intro d _
  rw [h d]
  exact ⟨[], Patched.refl d dir, fun _ _ hl => absurd hl (by simp)⟩

theorem Confined.bind {x : Action α} {f : α → Action β} (hx : x.Confined p dir fs)
    (hf : ∀ d a d', x.Yields d a d' → (f a).Confined p dir fs) :
    (x >>= f).Confined p dir fs := by
  intro d hd
  obtain ⟨ps, hps, hmem⟩ := hx d hd
  cases hr : (x.run d).result with
  | error e =>
    rw [run_bind_error hr]
    exact ⟨ps, hps, hmem⟩
  | ok a =>
    rw [run_bind_ok hr]
    obtain ⟨qs, hqs, hmem'⟩ := hf d a _ ⟨hr, rfl⟩ _ (hps.directoryAt hd)
    refine ⟨qs ++ ps, hps.trans hqs, ?_⟩
    intro g c hl
    rw [List.lookup_append] at hl
    cases hq : qs.lookup g with
    | some c' => exact hmem' g c' hq
    | none =>
      rw [hq, Option.none_or] at hl
      exact hmem g c hl

/-- A patch of a single entry is confined to it. -/
theorem confined_single {x : Action α} {file : String} (hname : IsEntryName file)
    (hmem : file ∈ fs) (h : ∀ d, d.directoryAt p = .ok dir → (x.run d).disk = d ∨
      d.Replaceable p dir file ∧ ∃ c, d.Patched dir [(file, c)] (x.run d).disk) :
    x.Confined p dir fs := by
  intro d hd
  rcases h d hd with heq | ⟨hr, c, hp⟩
  · rw [heq]
    exact ⟨[], Patched.refl d dir, fun _ _ hl => absurd hl (by simp)⟩
  · refine ⟨[(file, c)], hp, ?_⟩
    intro f c' hl
    rw [(eq_of_lookup_singleton hl).1]
    exact ⟨hmem, hname, hr.fits⟩

theorem confined_removeIfPresent {file : String} (hf : IsEntryName file) (hmem : file ∈ fs) :
    (Store.removeIfPresent (p.join file)).Confined p dir fs := by
  apply confined_single hf hmem
  intro d hd
  rcases Store.removeIfPresent_cases hd hf with ⟨hr, d₁, hy, hp⟩ | ⟨-, e, hfail⟩
  · exact .inr ⟨hr, none, hy.2 ▸ hp⟩
  · exact .inl hfail.2

theorem confined_writeText {file : String} (hf : IsEntryName file) (hmem : file ∈ fs)
    (text : String) : (Store.writeText (p.join file) text).Confined p dir fs := by
  apply confined_single hf hmem
  intro d hd
  rcases Store.writeText_cases hd hf text with ⟨hr, d₁, hy, hp⟩ | ⟨-, e, hfail⟩
  · exact .inr ⟨hr, some text.toUTF8, hy.2 ▸ hp⟩
  · exact .inl hfail.2

end Action

namespace Store

variable {s : Store} {d d' d'' : Disk} {dir : Place} {fs : List String} {name : String}

/-! ## Frames -/

theorem confined_ensureRoot : s.ensureRoot.Confined s.root dir fs := by
  intro d hd
  rw [disk_ensureRoot, rooted_of_directoryAt hd]
  exact ⟨[], Patched.refl d dir, fun _ _ hl => absurd hl (by simp)⟩

/-- From `d` to `d'`, at most the directory of the store was made and then the entries `fs` of it
were changed. -/
def Touches (s : Store) (fs : List String) (d d' : Disk) : Prop :=
  d' = d ∨ d' = s.rooted d ∨ ∃ dir ps, (s.rooted d).directoryAt s.root = .ok dir ∧
    (s.rooted d).Patched dir ps d' ∧
    ∀ f c, ps.lookup f = some c → f ∈ fs ∧ IsEntryName f ∧ s.root.entryFault? f = none

/-- Where the directory is there, what is confined to its entries touches them only. -/
theorem touches_of_confined {α : Type} {x : Action α} (hd : d.directoryAt s.root = .ok dir)
    (hx : x.Confined s.root dir fs) : s.Touches fs d (x.run d).disk := by
  obtain ⟨ps, hps, hmem⟩ := hx d hd
  refine .inr (.inr ⟨dir, ps, ?_, ?_, hmem⟩)
  · rw [rooted_of_directoryAt hd, hd]
  · rwa [rooted_of_directoryAt hd]

/-- After the directory was made, what is confined to its entries may follow. -/
theorem Touches.trans_confined {α : Type} {x : Action α} (h : s.Touches fs d d')
    (hd : d'.directoryAt s.root = .ok dir) (hx : x.Confined s.root dir fs) :
    s.Touches fs d (x.run d').disk := by
  rcases h with rfl | rfl | ⟨dir', ps, hroot, hps, hmem⟩
  · exact touches_of_confined hd hx
  · obtain ⟨ps, hps, hmem⟩ := hx _ hd
    exact .inr (.inr ⟨dir, ps, hd, hps, hmem⟩)
  · obtain rfl := Except.ok.inj ((hps.directoryAt hroot).symm.trans hd)
    obtain ⟨qs, hqs, hmem'⟩ := hx d' hd
    refine .inr (.inr ⟨dir', qs ++ ps, hroot, hps.trans hqs, ?_⟩)
    intro f c hl
    rw [List.lookup_append] at hl
    cases hq : qs.lookup f with
    | some c' => exact hmem' f c' hq
    | none =>
      rw [hq, Option.none_or] at hl
      exact hmem f c hl

/-- What follows the making of the directory is confined to its entries. -/
theorem touches_ensureRoot_bind {α : Type} {f : Unit → Action α}
    (hf : ∀ dir, (f ()).Confined s.root dir fs) (d : Disk) :
    s.Touches fs d ((s.ensureRoot >>= f).run d).disk := by
  cases hr : (s.ensureRoot.run d).result with
  | error e =>
    rw [run_bind_error hr]
    exact .inr (.inl rfl)
  | ok u =>
    rw [run_bind_ok hr]
    obtain ⟨-, dir, hd⟩ := ensureRoot_yields ⟨hr, rfl⟩
    exact Touches.trans_confined (.inr (.inl rfl)) hd (hf dir)

/-- Checks change nothing. -/
theorem touches_bind_of_readsOnly {α β : Type} {x : Action α} {f : α → Action β}
    (hx : x.ReadsOnly)
    (hf : ∀ a, x.Yields d a d → s.Touches fs d ((f a).run d).disk) :
    s.Touches fs d ((x >>= f).run d).disk := by
  cases hr : (x.run d).result with
  | error e =>
    rw [run_bind_error hr]
    exact .inl (hx d)
  | ok a =>
    rw [run_bind_ok hr, hx d]
    exact hf a ⟨hr, hx d⟩

/-- After an operation that leaves the directory of the store behind, what is confined to its
entries may follow. -/
theorem touches_bind {α β : Type} {x : Action α} {f : α → Action β}
    (hx : s.Touches fs d (x.run d).disk)
    (hroot : ∀ a d', x.Yields d a d' → ∃ dir, d'.directoryAt s.root = .ok dir)
    (hf : ∀ a dir, x.Yields d a (x.run d).disk → (f a).Confined s.root dir fs) :
    s.Touches fs d ((x >>= f).run d).disk := by
  cases hr : (x.run d).result with
  | error e =>
    rw [run_bind_error hr]
    exact hx
  | ok a =>
    rw [run_bind_ok hr]
    obtain ⟨dir, hd⟩ := hroot a _ ⟨hr, rfl⟩
    exact hx.trans_confined hd (hf a dir ⟨hr, rfl⟩)

theorem Touches.mono {gs : List String} (h : s.Touches fs d d') (hsub : ∀ f ∈ fs, f ∈ gs) :
    s.Touches gs d d' := by
  rcases h with h | h | ⟨dir, ps, hd, hps, hmem⟩
  · exact .inl h
  · exact .inr (.inl h)
  · exact .inr (.inr ⟨dir, ps, hd, hps, fun f c hl => ⟨hsub f (hmem f c hl).1, (hmem f c hl).2⟩⟩)

theorem Touches.directoryAt (h : s.Touches fs d d') (hd : d.directoryAt s.root = .ok dir) :
    d'.directoryAt s.root = .ok dir := by
  rcases h with rfl | rfl | ⟨dir', ps, -, hp, -⟩
  · exact hd
  · rwa [rooted_of_directoryAt hd]
  · rw [rooted_of_directoryAt hd] at hp
    exact hp.directoryAt hd

theorem Touches.node?_eq (h : s.Touches fs d d') (hd : d.directoryAt s.root = .ok dir) {f : String}
    (hf : f ∉ fs) : d'.node? (f :: dir) = d.node? (f :: dir) := by
  rcases h with rfl | rfl | ⟨dir', ps, hd', hp, hmem⟩
  · rfl
  · rw [rooted_of_directoryAt hd]
  · rw [rooted_of_directoryAt hd] at hd' hp
    obtain rfl := Except.ok.inj (hd.symm.trans hd')
    exact hp.entry_of_not_mem (lookup_eq_none (fun f c hl => (hmem f c hl).1) hf)

theorem touches_writeFragments (hs : s.settings.SlashFree) (name driver sdf : String) (d : Disk) :
    s.Touches (s.fragments name) d ((s.writeFragments name driver sdf).run d).disk := by
  unfold writeFragments
  refine touches_bind_of_readsOnly (readsOnly_of _) fun paths hpaths => ?_
  rw [yields_of, paths_eq_ok_iff] at hpaths
  obtain ⟨⟨hv, rfl⟩, -⟩ := hpaths
  refine touches_bind_of_readsOnly (s.readsOnly_checkCollision name) fun _ _ => ?_
  refine touches_ensureRoot_bind (fun dir => ?_) d
  have hdriver := isEntryName_driverFile hs hv
  have hsdf := isEntryName_sdfFile hs hv
  have hmem : s.driverFile name ∈ s.fragments name := List.mem_cons_self
  have hmem' : s.sdfFile name ∈ s.fragments name := List.mem_cons_of_mem _ List.mem_cons_self
  refine (confined_removeIfPresent hdriver hmem).bind fun _ _ _ _ => ?_
  refine (confined_removeIfPresent hsdf hmem').bind fun _ _ _ _ => ?_
  refine (confined_writeText hdriver hmem driver).bind fun _ _ _ _ => ?_
  refine (confined_writeText hsdf hmem' sdf).bind fun _ _ _ _ => ?_
  exact ((readsOnly_emit _).bind fun _ => readsOnly_pure _).confined

theorem confined_save (hs : s.settings.SlashFree) (c : Config) :
    (s.save c).Confined s.root dir [s.documentFile c.name] := by
  unfold save
  refine (readsOnly_of _).confined.bind fun _ paths _ hpaths => ?_
  rw [yields_of, paths_eq_ok_iff] at hpaths
  obtain ⟨⟨hv, rfl⟩, -⟩ := hpaths
  have hwrite : (s.ensureRoot >>= fun _ =>
      writeText (s.artifacts c.name).document (Document.ofConfig c).encode >>= fun _ =>
        emit (.savedDocument c.name (s.artifacts c.name).document.text) >>= fun _ =>
          pure (s.artifacts c.name).document).Confined s.root dir [s.documentFile c.name] := by
    refine confined_ensureRoot.bind fun _ _ _ _ => ?_
    refine (confined_writeText (isEntryName_documentFile hs hv) (by simp) _).bind fun _ _ _ _ => ?_
    exact ((readsOnly_emit _).bind fun _ => readsOnly_pure _).confined
  cases c.hasUnknown
  · exact hwrite
  · exact (readsOnly_refuse _).confined.bind fun _ _ _ _ => hwrite

theorem touches_publish (hs : s.settings.SlashFree) (c : Config) (strict : Bool) (d : Disk) :
    s.Touches (s.files c.name) d ((s.publish c strict).run d).disk := by
  have hrest : s.Touches (s.files c.name) d ((do
      let generated ← s.generate c strict
      let paths ← s.writeFragments c.name generated.driver generated.sdf
      let _ ← s.save c
      emit (.published c.name c.operations.length c.terminal generated.warnings.length)
      pure (⟨paths, generated⟩ : Published)).run d).disk := by
    refine touches_bind_of_readsOnly (s.readsOnly_generate c strict) fun g _ => ?_
    refine touches_bind ?_ (fun p d' hy => ?_) fun p dir _ => ?_
    · exact (touches_writeFragments hs c.name g.driver g.sdf d).mono fun _ =>
        mem_files_of_mem_fragments
    · obtain ⟨-, dir, hw⟩ := writeFragments_yields hs hy
      exact ⟨dir, hw.patched.directoryAt hw.root⟩
    · refine Confined.bind (fun d hd => ?_) fun _ _ _ _ =>
        ((readsOnly_emit _).bind fun _ => readsOnly_pure _).confined
      obtain ⟨ps, hps, hmem⟩ := confined_save hs c d hd
      refine ⟨ps, hps, fun f k hl => ⟨?_, (hmem f k hl).2⟩⟩
      rw [List.mem_singleton.mp (hmem f k hl).1]
      exact s.documentFile_mem_files c.name
  unfold publish
  cases c.hasUnknown
  · exact hrest
  · exact touches_bind_of_readsOnly (readsOnly_refuse _) fun _ h => absurd h yields_refuse

theorem touches_regenerate (hs : s.settings.SlashFree) (name : String) (strict : Bool) (d : Disk) :
    s.Touches (s.fragments name) d ((s.regenerate name strict).run d).disk := by
  unfold regenerate
  refine touches_bind_of_readsOnly (s.readsOnly_readDocument name) fun c _ => ?_
  refine touches_bind_of_readsOnly (s.readsOnly_generate c strict) fun g _ => ?_
  refine touches_bind (touches_writeFragments hs name g.driver g.sdf d) (fun p d' hy => ?_)
    fun p dir _ => ((readsOnly_emit _).bind fun _ => readsOnly_pure _).confined
  obtain ⟨-, dir, hw⟩ := writeFragments_yields hs hy
  exact ⟨dir, hw.patched.directoryAt hw.root⟩

/-! ## Operations that fail -/

/-- The name has passed every check, but its fragments could not be replaced on `d`: the directory
of the store cannot be made, or what stands in the place of a fragment cannot be removed.  The driver
comes first, so nothing else is gone by then. -/
structure FragmentsStuck (s : Store) (d : Disk) (name : String) (d' : Disk) : Prop where
  valid : PresetName.IsValid name
  separate : (s.checkCollision name).Yields d () d
  cause : (∃ e, s.ensureRoot.Fails d e d') ∨
    ∃ dir, s.ensureRoot.Yields d () (s.rooted d) ∧ (s.rooted d).directoryAt s.root = .ok dir ∧
      (d' = s.rooted d ∧ ¬ (s.rooted d).Replaceable s.root dir (s.driverFile name) ∨
        (s.rooted d).Patched dir [(s.driverFile name, none)] d' ∧
          ¬ (s.rooted d).Replaceable s.root dir (s.sdfFile name))

/-- **How fragments can fail to be written**: their name does not pass the checks, or they cannot be
replaced.  Where both can be removed, both are written. -/
theorem writeFragments_fails_cases (hs : s.settings.SlashFree) {driver sdf : String}
    {e : PresetError} (h : (s.writeFragments name driver sdf).Fails d e d') :
    d' = d ∧ ¬ (PresetName.IsValid name ∧ (s.checkCollision name).Yields d () d) ∨
      s.FragmentsStuck d name d' := by
  rw [writeFragments, fails_bind] at h
  rcases h with h | ⟨paths, d₀, hpaths, h⟩
  · obtain ⟨hpaths, rfl⟩ := fails_of.mp h
    refine .inl ⟨rfl, fun hpassed => ?_⟩
    rw [s.paths_of_isValid hpassed.1] at hpaths
    exact absurd hpaths (by simp)
  rw [yields_of, paths_eq_ok_iff] at hpaths
  obtain ⟨⟨hv, rfl⟩, rfl⟩ := hpaths
  have hdriver := isEntryName_driverFile hs hv
  have hsdf := isEntryName_sdfFile hs hv
  rw [fails_bind] at h
  rcases h with h | ⟨u, d₁, hcheck, h⟩
  · exact .inl ⟨h.2.symm.trans (s.readsOnly_checkCollision name _),
      fun hpassed => hpassed.2.not_fails h⟩
  obtain rfl := (s.readsOnly_checkCollision name).disk_eq hcheck
  rw [fails_bind] at h
  rcases h with h | ⟨_, d₂, hroot, h⟩
  · exact .inr ⟨hv, hcheck, .inl ⟨e, h⟩⟩
  obtain ⟨rfl, dir, hd⟩ := ensureRoot_yields hroot
  rw [fails_bind] at h
  rcases h with h | ⟨_, d₃, h₁, h⟩
  · obtain ⟨hr, heq⟩ := removeIfPresent_fails hd hdriver h
    exact .inr ⟨hv, hcheck, .inr ⟨dir, hroot, hd, .inl ⟨heq, hr⟩⟩⟩
  obtain ⟨hr₁, hp₁⟩ := removeIfPresent_yields hd hdriver h₁
  rw [fails_bind] at h
  rcases h with h | ⟨_, d₄, h₂, h⟩
  · obtain ⟨hr, rfl⟩ := removeIfPresent_fails (hp₁.directoryAt hd) hsdf h
    exact .inr ⟨hv, hcheck, .inr ⟨dir, hroot, hd,
      .inr ⟨hp₁, fun hc => hr (hp₁.replaceable_iff.mpr hc)⟩⟩⟩
  -- what was removed can be written, so nothing fails from here on
  exfalso
  obtain ⟨hr₂, hp₂⟩ := removeIfPresent_yields (hp₁.directoryAt hd) hsdf h₂
  have hp₁₂ := hp₁.trans hp₂
  rw [fails_bind] at h
  rcases h with h | ⟨_, d₅, h₃, h⟩
  · exact (writeText_fails (hp₁₂.directoryAt hd) hdriver h).1 (hp₁₂.replaceable_iff.mpr hr₁)
  have hp₃ := (writeText_yields (hp₁₂.directoryAt hd) hdriver h₃).2
  have hp₁₂₃ := hp₁₂.trans hp₃
  rw [fails_bind] at h
  rcases h with h | ⟨_, d₆, -, h⟩
  · refine (writeText_fails (hp₁₂₃.directoryAt hd) hsdf h).1 ?_
    exact (hp₂.trans hp₃).replaceable_iff.mpr hr₂
  · simp [fails_bind] at h

/-- Fragments that cannot be written have not been touched, or their name has passed every check. -/
theorem writeFragments_fails (hs : s.settings.SlashFree) {driver sdf : String} {e : PresetError}
    (h : (s.writeFragments name driver sdf).Fails d e d') :
    d' = d ∨ PresetName.IsValid name ∧ (s.checkCollision name).Yields d () d :=
  (writeFragments_fails_cases hs h).imp And.left fun hstuck => ⟨hstuck.valid, hstuck.separate⟩

/-- A name that passed every check has its fragments written wherever they can be, once the
directory of the store is made. -/
theorem writeFragments_not_fails_of_made (hs : s.settings.SlashFree) {driver sdf : String}
    {e : PresetError} {d₀ : Disk} (hv : PresetName.IsValid name)
    (hcheck : (s.checkCollision name).Yields d () d) (hroot : s.ensureRoot.Yields d () d₀)
    (hd : d₀.directoryAt s.root = .ok dir) (hdriver : d₀.Replaceable s.root dir (s.driverFile name))
    (hsdf : d₀.Replaceable s.root dir (s.sdfFile name)) :
    ¬ (s.writeFragments name driver sdf).Fails d e d' := by
  intro h
  rcases writeFragments_fails_cases hs h with ⟨-, hrefused⟩ | hstuck
  · exact hrefused ⟨hv, hcheck⟩
  rcases hstuck.cause with ⟨e', hfail⟩ | ⟨dir', hroot', hd', hcause⟩
  · exact hroot.not_fails hfail
  obtain ⟨-, rfl⟩ := Yields.unique hroot hroot'
  obtain rfl := Except.ok.inj (hd.symm.trans hd')
  rcases hcause with ⟨-, hr⟩ | ⟨-, hr⟩
  · exact hr hdriver
  · exact hr hsdf

/-- Where the directory of the store is there, it need not be made. -/
theorem writeFragments_not_fails (hs : s.settings.SlashFree) {driver sdf : String}
    {e : PresetError} (hv : PresetName.IsValid name) (hcheck : (s.checkCollision name).Yields d () d)
    (hd : d.directoryAt s.root = .ok dir) (hdriver : d.Replaceable s.root dir (s.driverFile name))
    (hsdf : d.Replaceable s.root dir (s.sdfFile name)) :
    ¬ (s.writeFragments name driver sdf).Fails d e d' :=
  writeFragments_not_fails_of_made hs hv hcheck
    (ensureRoot_of_replaceable hd (isEntryName_driverFile hs hv) hdriver) hd hdriver hsdf

/-- Where both fragments can be written, a failure has touched nothing. -/
theorem writeFragments_fails_of_replaceable (hs : s.settings.SlashFree) {driver sdf : String}
    {e : PresetError} (hd : d.directoryAt s.root = .ok dir)
    (hdriver : d.Replaceable s.root dir (s.driverFile name))
    (hsdf : d.Replaceable s.root dir (s.sdfFile name))
    (h : (s.writeFragments name driver sdf).Fails d e d') : d' = d := by
  rcases writeFragments_fails hs h with heq | ⟨hv, hcheck⟩
  · exact heq
  · exact absurd h (writeFragments_not_fails hs hv hcheck hd hdriver hsdf)

/-- A configuration that passed every check is saved wherever its document can be written. -/
theorem save_fails (hs : s.settings.SlashFree) {c : Config} {e : PresetError}
    (hv : PresetName.IsValid c.name) (hknown : c.hasUnknown = false)
    (hd : d.directoryAt s.root = .ok dir) (h : (s.save c).Fails d e d') :
    d' = d ∧ ¬ d.Replaceable s.root dir (s.documentFile c.name) := by
  have hne := isEntryName_documentFile hs hv
  rw [save, s.paths_of_isValid hv, fails_bind] at h
  rcases h with h | ⟨paths, d₀, hpaths, h⟩
  · exact absurd (fails_of.mp h).1 (by simp)
  rw [yields_of] at hpaths
  obtain ⟨hpaths, rfl⟩ := hpaths
  obtain rfl := Except.ok.inj hpaths
  simp only [hknown, Bool.false_eq_true, if_false] at h
  rw [fails_bind] at h
  rcases h with h | ⟨u, d₁, hroot, h⟩
  · refine ⟨by rw [ensureRoot_fails h, rooted_of_directoryAt hd], ?_⟩
    intro hr
    exact (ensureRoot_of_replaceable hd hne hr).not_fails h
  obtain ⟨heq, -⟩ := ensureRoot_yields hroot
  rw [rooted_of_directoryAt hd] at heq
  subst heq
  rw [fails_bind] at h
  rcases h with h | ⟨_, d₂, -, h⟩
  · exact (writeText_fails hd hne h).symm
  · simp [fails_bind] at h

/-- A document that cannot be saved is not touched, whatever the extensions are; at most the
directory of the store was made. -/
theorem disk_of_save_fails {c : Config} {e : PresetError} (h : (s.save c).Fails d e d') :
    d' = d ∨ d' = s.rooted d := by
  rw [save, fails_bind] at h
  rcases h with h | ⟨paths, d₀, hpaths, h⟩
  · exact .inl (fails_of.mp h).2
  obtain ⟨-, rfl⟩ := yields_of.mp hpaths
  cases hknown : c.hasUnknown with
  | true =>
    simp only [hknown, if_true] at h
    rcases fails_bind.mp h with h | ⟨_, _, h, -⟩
    · exact .inl (fails_refuse.mp h).2
    · exact absurd h yields_refuse
  | false =>
    simp only [hknown, Bool.false_eq_true, if_false] at h
    rw [fails_bind] at h
    rcases h with h | ⟨u, d₁, hroot, h⟩
    · exact .inr (ensureRoot_fails h)
    obtain ⟨rfl, -⟩ := ensureRoot_yields hroot
    rw [fails_bind] at h
    rcases h with h | ⟨_, d₂, -, h⟩
    · exact .inr (disk_of_writeText_fails h)
    · simp [fails_bind] at h

theorem touches_of_save_fails {c : Config} {e : PresetError} (h : (s.save c).Fails d e d') :
    s.Touches [] d d' := by
  rcases disk_of_save_fails h with heq | heq
  · exact .inl heq
  · exact .inr (.inl heq)

theorem touches_save (hs : s.settings.SlashFree) (c : Config) (d : Disk) :
    s.Touches [s.documentFile c.name] d ((s.save c).run d).disk := by
  rcases (s.save c).yields_or_fails d with ⟨p, hy⟩ | ⟨e, hfail⟩
  · obtain ⟨hv, -, -, dir, hd, hr, hp⟩ := save_yields hs hy
    refine .inr (.inr ⟨dir, _, hd, hp, ?_⟩)
    intro f k hl
    rw [(eq_of_lookup_singleton hl).1]
    exact ⟨List.mem_singleton_self _, isEntryName_documentFile hs hv, hr.fits⟩
  · exact (touches_of_save_fails hfail).mono fun _ h => absurd h (by simp)

/-- Unknown kinds are not published, and nothing happens. -/
theorem publish_of_unknown {c : Config} (hunknown : c.hasUnknown = true) (strict : Bool)
    (d : Disk) : (s.publish c strict).run d = ⟨.error (.unrecognisedKinds c.name), d, []⟩ := by
  unfold publish
  rw [hunknown]
  rfl

theorem publish_fails_of_unknown {c : Config} (hunknown : c.hasUnknown = true) (strict : Bool) :
    (s.publish c strict).Fails d (.unrecognisedKinds c.name) d := by
  rw [Fails, publish_of_unknown hunknown]
  exact ⟨rfl, rfl⟩

/-- After its fragments were written, a publication does on the disk what `save` does. -/
theorem disk_publish_of_yields {c : Config} {strict : Bool} {g : Generated} {paths : ArtifactPaths}
    (hknown : c.hasUnknown = false) (hg : Fragment.generate c s.settings strict = .ok g)
    (hwrite : (s.writeFragments c.name g.driver g.sdf).Yields d paths d') :
    ((s.publish c strict).run d).disk = ((s.save c).run d').disk := by
  unfold publish
  simp only [hknown, Bool.false_eq_true, if_false]
  rw [(generate_of_ok hg).disk_bind, hwrite.disk_bind]
  exact disk_bind_of_readsOnly (fun _ => (readsOnly_emit _).bind fun _ => readsOnly_pure _) d'

/-- A publication whose fragments cannot be written goes no further. -/
theorem disk_publish_of_fails {c : Config} {strict : Bool} {g : Generated} {e : PresetError}
    (hknown : c.hasUnknown = false) (hg : Fragment.generate c s.settings strict = .ok g)
    (hwrite : (s.writeFragments c.name g.driver g.sdf).Fails d e d') :
    ((s.publish c strict).run d).disk = d' := by
  unfold publish
  simp only [hknown, Bool.false_eq_true, if_false]
  rw [(generate_of_ok hg).disk_bind, hwrite.disk_bind]

/-- How a publication can fail: before it writes anything, in writing its fragments, or in saving
its document. -/
theorem publish_fails_cases {c : Config} {strict : Bool} {e : PresetError}
    (h : (s.publish c strict).Fails d e d') :
    d' = d ∨
      (∃ g : Generated, (s.writeFragments c.name g.driver g.sdf).Fails d e d') ∨
      ∃ (g : Generated) (paths : ArtifactPaths) (d₁ : Disk), c.hasUnknown = false ∧
        (s.writeFragments c.name g.driver g.sdf).Yields d paths d₁ ∧ (s.save c).Fails d₁ e d' := by
  unfold publish at h
  cases hknown : c.hasUnknown with
  | true =>
    simp only [hknown, if_true] at h
    rcases fails_bind.mp h with h | ⟨_, _, h, -⟩
    · exact .inl (fails_refuse.mp h).2
    · exact absurd h yields_refuse
  | false =>
    simp only [hknown, Bool.false_eq_true, if_false] at h
    rw [fails_bind] at h
    rcases h with h | ⟨g, d₀, hgenerate, h⟩
    · exact .inl (h.2.symm.trans (s.readsOnly_generate c strict d))
    obtain ⟨-, rfl⟩ := generate_yields hgenerate
    rw [fails_bind] at h
    rcases h with h | ⟨paths, d₁, hwrite, h⟩
    · exact .inr (.inl ⟨g, h⟩)
    rw [fails_bind] at h
    rcases h with h | ⟨_, _, -, h⟩
    · exact .inr (.inr ⟨g, paths, d₁, rfl, hwrite, h⟩)
    · simp [fails_bind] at h

/-- A publication that fails has touched nothing, or its name has passed every check and only
fragments were touched. -/
theorem publish_fails (hs : s.settings.SlashFree) {c : Config} {strict : Bool} {e : PresetError}
    (h : (s.publish c strict).Fails d e d') :
    d' = d ∨ (PresetName.IsValid c.name ∧ (s.checkCollision c.name).Yields d () d ∧
      s.Touches (s.fragments c.name) d d') := by
  rcases publish_fails_cases h with heq | ⟨g, h⟩ | ⟨g, paths, d₁, hknown, hwrite, h⟩
  · exact .inl heq
  · have htouch := touches_writeFragments hs c.name g.driver g.sdf d
    rcases writeFragments_fails hs h with heq | ⟨hv, hcheck⟩
    · exact .inl heq
    · exact .inr ⟨hv, hcheck, h.2 ▸ htouch⟩
  · have htouch := touches_writeFragments hs c.name g.driver g.sdf d
    obtain ⟨-, dir, hw⟩ := writeFragments_yields hs hwrite
    rw [(save_fails hs hw.valid hknown (hw.patched.directoryAt hw.root) h).1]
    exact .inr ⟨hw.valid, hw.separate, hwrite.2 ▸ htouch⟩

/-- Where all files of a preset can be written, its publication fails before it touches any. -/
theorem publish_fails_of_writable (hs : s.settings.SlashFree) {c : Config} {strict : Bool}
    {e : PresetError} (hd : d.directoryAt s.root = .ok dir) (hw : s.Writable d dir c.name)
    (h : (s.publish c strict).Fails d e d') : d' = d := by
  rcases publish_fails_cases h with heq | ⟨g, h⟩ | ⟨g, paths, d₁, hknown, hwrite, h⟩
  · exact heq
  · exact writeFragments_fails_of_replaceable hs hd hw.driver hw.sdf h
  · exfalso
    obtain ⟨-, dir', hf⟩ := writeFragments_yields hs hwrite
    obtain ⟨rfl, -, -, hpatched⟩ := hf.of_directoryAt hd
    apply (save_fails hs hf.valid hknown (hpatched.directoryAt hd) h).2
    exact hpatched.replaceable_iff.mpr hw.document

/-- A regeneration that fails has changed nothing, or it failed to write what it had generated. -/
theorem regenerate_fails_cases {strict : Bool} {e : PresetError}
    (h : (s.regenerate name strict).Fails d e d') :
    d' = d ∨ ∃ g : Generated, (s.writeFragments name g.driver g.sdf).Fails d e d' := by
  rw [regenerate, fails_bind] at h
  rcases h with h | ⟨c, d₀, hread, h⟩
  · exact .inl (h.2.symm.trans (s.readsOnly_readDocument name d))
  obtain rfl := (s.readsOnly_readDocument name).disk_eq hread
  rw [fails_bind] at h
  rcases h with h | ⟨g, d₁, hgenerate, h⟩
  · exact .inl (h.2.symm.trans (s.readsOnly_generate c strict _))
  obtain ⟨-, rfl⟩ := generate_yields hgenerate
  rw [fails_bind] at h
  rcases h with h | ⟨paths, d₂, -, h⟩
  · exact .inr ⟨g, h⟩
  · simp [fails_bind] at h

/-- Where both fragments can be written, a failure to write them again has touched nothing. -/
theorem regenerate_fails_of_writable (hs : s.settings.SlashFree) {strict : Bool}
    {e : PresetError} (hd : d.directoryAt s.root = .ok dir) (hw : s.Writable d dir name)
    (h : (s.regenerate name strict).Fails d e d') : d' = d := by
  rcases regenerate_fails_cases h with heq | ⟨g, hwrite⟩
  · exact heq
  · exact writeFragments_fails_of_replaceable hs hd hw.driver hw.sdf hwrite

/-- Whatever a regeneration leads to, it has changed nothing, or its name has passed every check. -/
theorem disk_regenerate_cases (hs : s.settings.SlashFree) (name : String) (strict : Bool)
    (d : Disk) : ((s.regenerate name strict).run d).disk = d ∨
      PresetName.IsValid name ∧ (s.checkCollision name).Yields d () d := by
  rcases (s.regenerate name strict).yields_or_fails d with ⟨p, hy⟩ | ⟨e, hfail⟩
  · obtain ⟨c, dir, -, -, hw⟩ := regenerate_yields hs hy
    exact .inr ⟨hw.valid, hw.separate⟩
  · rcases regenerate_fails_cases hfail with heq | ⟨g, hwrite⟩
    · exact .inl heq
    · exact writeFragments_fails hs hwrite

/-! ## Removing -/

/-- One more file, after some were removed: it is removed too, or it cannot be, and then nothing
changes. -/
theorem removeIfPresent_next {removed : List String} {file : String} (hf : IsEntryName file)
    (hd : d.directoryAt s.root = .ok dir)
    (hp : d.Patched dir (removed.map fun f => (f, none)) d') :
    (d.Replaceable s.root dir file ∧ ∃ b d'', (removeIfPresent (s.root.join file)).Yields d' b d'' ∧
        d.Patched dir ((removed ++ [file]).map fun f => (f, none)) d'') ∨
      (¬ d.Replaceable s.root dir file ∧
        ∃ e, (removeIfPresent (s.root.join file)).Fails d' e d') := by
  rcases removeIfPresent_cases (hp.directoryAt hd) hf with ⟨hr, d'', hy, hp'⟩ | ⟨hr, hfail⟩
  · exact .inl ⟨hp.replaceable_iff.mp hr, _, d'', hy, hp.removed_concat hp'⟩
  · exact .inr ⟨fun hc => hr (hp.replaceable_iff.mpr hc), hfail⟩

/-- A removal deletes the files of its name in the order driver, distance fragment, document, up
to the first that cannot be removed. -/
theorem remove_spec (hs : s.settings.SlashFree) (hv : PresetName.IsValid name)
    (hd : d.directoryAt s.root = .ok dir) :
    ∃ removed rest, s.files name = removed ++ rest ∧
      d.Patched dir (removed.map fun f => (f, none)) ((s.remove name).run d).disk ∧
      (∀ f ∈ removed, d.Replaceable s.root dir f) ∧
      (∀ f, rest.head? = some f → ¬ d.Replaceable s.root dir f) := by
  have hpaths : (of (s.paths name)).Yields d (s.artifacts name) d :=
    yields_of.mpr ⟨s.paths_of_isValid hv, rfl⟩
  have hp₀ : d.Patched dir (([] : List String).map fun f => (f, none)) d := Patched.refl d dir
  unfold remove
  rw [hpaths.disk_bind]
  simp only [artifacts, documentPath]
  rcases removeIfPresent_next (isEntryName_driverFile hs hv) hd hp₀ with
    ⟨hr₁, _, d₁, hy₁, hp₁⟩ | ⟨hr₁, e, hfail⟩
  · rw [hy₁.disk_bind]
    rcases removeIfPresent_next (isEntryName_sdfFile hs hv) hd hp₁ with
      ⟨hr₂, _, d₂, hy₂, hp₂⟩ | ⟨hr₂, e, hfail⟩
    · rw [hy₂.disk_bind]
      rcases removeIfPresent_next (isEntryName_documentFile hs hv) hd hp₂ with
        ⟨hr₃, _, d₃, hy₃, hp₃⟩ | ⟨hr₃, e, hfail⟩
      · rw [hy₃.disk_bind]
        exact ⟨_, [], rfl, hp₃, by simp [hr₁, hr₂, hr₃], by simp⟩
      · rw [hfail.disk_bind]
        exact ⟨_, [s.documentFile name], rfl, hp₂, by simp [hr₁, hr₂], by simpa using hr₃⟩
    · rw [hfail.disk_bind]
      exact ⟨_, [s.sdfFile name, s.documentFile name], rfl, hp₁, by simp [hr₁], by simpa using hr₂⟩
  · rw [hfail.disk_bind]
    exact ⟨[], s.files name, rfl, hp₀, by simp, by simpa [files] using hr₁⟩

end Store

end FractalShader
