import FractalShader.Proofs.Store.Isolation

/-!
# What the operations of a store depend on

An operation on the preset `name` looks at the three files of `name` and at the
documents of the presets with which it could share a fragment, and at nothing
else.  On two disks that hold the same there it has the same result and makes
the same changes.

* `Alike` — two disks that hold the same under given names of one directory;
* `Local` — an action whose result and changes depend on given entries only, and
  whose changes are among given ones; the bind law is `Local.bind`;
* `Consults` — the entries on which an operation on a name depends;
* `local_publish`, `local_regenerate`, `local_remove` — the footprint of each
  operation.
-/

namespace FractalShader

open FractalShader.Disk

namespace Action

variable {α β : Type} {d d' : Disk} {p : Path} {dir : Place} {reads : String → Prop}
  {writes : List String} {file : String}

/-- The path `p` leads to the directory `dir` on both disks, and they hold the same there under the
names in `reads`. -/
structure Alike (p : Path) (dir : Place) (reads : String → Prop) (d d' : Disk) : Prop where
  left : d.directoryAt p = .ok dir
  right : d'.directoryAt p = .ok dir
  same : ∀ f, reads f → d'.node? (f :: dir) = d.node? (f :: dir)

/-- Where `p` leads to the directory `dir`, the result of the action and the changes that it makes
depend on the entries in `reads` only, and it changes at most the entries in `writes`. -/
def Local (x : Action α) (p : Path) (dir : Place) (reads : String → Prop)
    (writes : List String) : Prop :=
  ∀ d d', Alike p dir reads d d' → (x.run d').result = (x.run d).result ∧
    ∃ ps, d.Patched dir ps (x.run d).disk ∧ d'.Patched dir ps (x.run d').disk ∧
      ∀ f c, ps.lookup f = some c → f ∈ writes

theorem Alike.refl (h : d.directoryAt p = .ok dir) : Alike p dir reads d d :=
  ⟨h, h, fun _ _ => rfl⟩

/-- The same patches on both disks leave them alike. -/
theorem Alike.patched {ps : Patches} {e e' : Disk} (h : Alike p dir reads d d')
    (hp : d.Patched dir ps e) (hp' : d'.Patched dir ps e') : Alike p dir reads e e' := by
  refine ⟨hp.directoryAt h.left, hp'.directoryAt h.right, ?_⟩
  intro f hf
  rw [hp.entry f, hp'.entry f, h.same f hf]

/-- A patch of other entries leaves a disk as it was where it is looked at. -/
theorem Alike.of_patched {ps : Patches} (hd : d.directoryAt p = .ok dir)
    (hp : d.Patched dir ps d') (hother : ∀ f, reads f → ps.lookup f = none) :
    Alike p dir reads d d' :=
  ⟨hd, hp.directoryAt hd, fun f hf => hp.entry_of_not_mem (hother f hf)⟩

theorem Alike.find_join (h : Alike p dir reads d d') (hf : IsEntryName file) (hr : reads file) :
    d'.find (p.join file) = d.find (p.join file) :=
  find_join_congr h.left h.right hf (h.same file hr)

theorem Alike.replaceable_iff (h : Alike p dir reads d d') (hr : reads file) :
    d'.Replaceable p dir file ↔ d.Replaceable p dir file := by
  constructor
  · intro hrep
    exact ⟨hrep.fits, h.same file hr ▸ hrep.not_directory⟩
  · intro hrep
    exact ⟨hrep.fits, (h.same file hr).symm ▸ hrep.not_directory⟩

/-! ## Sequences -/

/-- A reader is local when its result is. -/
theorem ReadsOnly.isLocal {x : Action α} (hx : x.ReadsOnly)
    (hr : ∀ d d', Alike p dir reads d d' → (x.run d').result = (x.run d).result) :
    x.Local p dir reads writes := by
  intro d d' h
  refine ⟨hr d d' h, [], ?_, ?_, fun _ _ hl => absurd hl (by simp)⟩
  · rw [hx d]
    exact Patched.refl d dir
  · rw [hx d']
    exact Patched.refl d' dir

theorem Local.bind {x : Action α} {f : α → Action β} (hx : x.Local p dir reads writes)
    (hf : ∀ d a d', x.Yields d a d' → (f a).Local p dir reads writes) :
    (x >>= f).Local p dir reads writes := by
  intro d d' h
  obtain ⟨hres, ps, hps, hps', hmem⟩ := hx d d' h
  cases hr : (x.run d).result with
  | error e =>
    rw [run_bind_error hr, run_bind_error (hres.trans hr)]
    exact ⟨rfl, ps, hps, hps', hmem⟩
  | ok a =>
    rw [run_bind_ok hr, run_bind_ok (hres.trans hr)]
    obtain ⟨hres', qs, hqs, hqs', hmem'⟩ := hf d a _ ⟨hr, rfl⟩ _ _ (h.patched hps hps')
    refine ⟨hres', qs ++ ps, hps.trans hqs, hps'.trans hqs', ?_⟩
    intro g c hl
    rw [List.lookup_append] at hl
    cases hq : qs.lookup g with
    | some c' => exact hmem' g c' hq
    | none =>
      rw [hq, Option.none_or] at hl
      exact hmem g c hl

/-- An action that does the same whatever the disk holds. -/
theorem ReadsOnly.isLocal_of_blind {x : Action α} (hx : x.ReadsOnly)
    (hr : ∀ d d', (x.run d').result = (x.run d).result) : x.Local p dir reads writes :=
  hx.isLocal fun d d' _ => hr d d'

theorem local_pure (a : α) : (pure a : Action α).Local p dir reads writes :=
  (readsOnly_pure a).isLocal_of_blind fun _ _ => rfl

theorem local_emit (e : Event) : (emit e).Local p dir reads writes :=
  (readsOnly_emit e).isLocal_of_blind fun _ _ => rfl

theorem local_emitAll (es : List Event) : (emitAll es).Local p dir reads writes :=
  (readsOnly_emitAll es).isLocal_of_blind fun _ _ => rfl

theorem local_of (r : Except PresetError α) : (of r).Local p dir reads writes :=
  (readsOnly_of r).isLocal_of_blind fun _ _ => rfl

theorem local_refuse (e : PresetError) : (refuse e : Action α).Local p dir reads writes :=
  (readsOnly_refuse e).isLocal_of_blind fun _ _ => rfl

/-! ## Single entries -/

theorem local_exists? (hf : IsEntryName file) (hr : reads file) :
    (ask (p.join file) (·.exists? (p.join file))).Local p dir reads writes := by
  refine (readsOnly_ask _ _).isLocal fun d d' h => ?_
  rw [run_ask, run_ask, exists?, exists?, h.find_join hf hr]

/-- A change of a single entry is local to it, when it is made exactly where that entry can be
replaced and what the entry becomes does not depend on the disk. -/
theorem local_single {x : Action α} (c : Option ByteArray) (hr : reads file) (hw : file ∈ writes)
    (hresult : ∀ d d', Alike p dir reads d d' → (x.run d').result = (x.run d).result)
    (hdisk : ∀ d, d.directoryAt p = .ok dir →
      (d.Replaceable p dir file ∧ d.Patched dir [(file, c)] (x.run d).disk) ∨
        (¬ d.Replaceable p dir file ∧ (x.run d).disk = d)) :
    x.Local p dir reads writes := by
  intro d d' h
  refine ⟨hresult d d' h, ?_⟩
  rcases hdisk d h.left with ⟨hrep, hp⟩ | ⟨hrep, heq⟩
  · rcases hdisk d' h.right with ⟨-, hp'⟩ | ⟨hrep', -⟩
    · refine ⟨[(file, c)], hp, hp', ?_⟩
      intro f k hl
      rwa [(eq_of_lookup_singleton hl).1]
    · exact absurd ((h.replaceable_iff hr).mpr hrep) hrep'
  · rcases hdisk d' h.right with ⟨hrep', -⟩ | ⟨-, heq'⟩
    · exact absurd ((h.replaceable_iff hr).mp hrep') hrep
    · rw [heq, heq']
      exact ⟨[], Patched.refl d dir, Patched.refl d' dir, fun _ _ hl => absurd hl (by simp)⟩

theorem local_removeIfPresent (hf : IsEntryName file) (hr : reads file) (hw : file ∈ writes) :
    (Store.removeIfPresent (p.join file)).Local p dir reads writes := by
  refine local_single none hr hw (fun d d' h => ?_) fun d hd => ?_
  · rw [Store.removeIfPresent, run_request, run_request, removeFile_join h.left hf,
      removeFile_join h.right hf, h.same file hr]
    cases p.entryFault? file with
    | some e => cases e <;> rfl
    | none => rcases d.node? (file :: dir) with _ | _ | content <;> rfl
  · rcases Store.removeIfPresent_cases hd hf with ⟨hrep, d₁, hy, hp⟩ | ⟨hrep, e, hfail⟩
    · exact .inl ⟨hrep, hy.2 ▸ hp⟩
    · exact .inr ⟨hrep, hfail.2⟩

theorem local_writeText (hf : IsEntryName file) (hr : reads file) (hw : file ∈ writes)
    (text : String) : (Store.writeText (p.join file) text).Local p dir reads writes := by
  refine local_single text.toUTF8 hr hw (fun d d' h => ?_) fun d hd => ?_
  · rw [Store.writeText, run_request, run_request, whole, whole, writeFile_join h.left hf,
      writeFile_join h.right hf, h.same file hr]
    cases p.entryFault? file with
    | some e => rfl
    | none =>
      by_cases hn : d.node? (file :: dir) = some .directory
      · simp only [hn, if_true]
      · simp only [hn, if_false]
  · rcases Store.writeText_cases hd hf text with ⟨hrep, d₁, hy, hp⟩ | ⟨hrep, e, hfail⟩
    · exact .inl ⟨hrep, hy.2 ▸ hp⟩
    · exact .inr ⟨hrep, hfail.2⟩

end Action

namespace Store

open FractalShader.Action

variable {s : Store} {dir : Place} {reads : String → Prop} {writes : List String} {name : String}

/-! ## Operations -/

/-- The entries on which an operation on the preset `name` depends: its own files, and the
documents of the presets with which it could share a fragment. -/
def Consults (s : Store) (name file : String) : Prop :=
  file ∈ s.files name ∨ ∃ partner,
    (name = Fragment.sdfStem partner ∨ partner = Fragment.sdfStem name) ∧
      file = s.documentFile partner

/-- To remove a file of the preset is local to it. -/
theorem local_removeOwn (hs : s.settings.SlashFree) (hv : PresetName.IsValid name) {file : String}
    (hf : file ∈ s.files name) : (removeIfPresent (s.root.join file)).Local s.root dir
      (s.Consults name) (s.files name) :=
  local_removeIfPresent (isEntryName_of_mem_files hs hv file hf) (.inl hf) hf

/-- To write a file of the preset is local to it. -/
theorem local_writeOwn (hs : s.settings.SlashFree) (hv : PresetName.IsValid name) {file : String}
    (hf : file ∈ s.files name) (text : String) : (writeText (s.root.join file) text).Local s.root
      dir (s.Consults name) (s.files name) :=
  local_writeText (isEntryName_of_mem_files hs hv file hf) (.inl hf) hf text

theorem local_ensureRoot : s.ensureRoot.Local s.root dir reads writes := by
  intro d d' h
  have hd := makeDirectories_eq_of_directoryAt h.left
  have hd' := makeDirectories_eq_of_directoryAt h.right
  rw [ensureRoot, run_request, run_request, hd, hd']
  exact ⟨rfl, [], Patched.refl d dir, Patched.refl d' dir, fun _ _ hl => absurd hl (by simp)⟩

theorem local_hasDocument (hs : s.settings.SlashFree) (hr : reads (s.documentFile name)) :
    (s.hasDocument name).Local s.root dir reads writes := by
  unfold hasDocument
  refine (local_of _).bind fun _ paths _ hpaths => ?_
  rw [yields_of, paths_eq_ok_iff] at hpaths
  obtain ⟨⟨hv, rfl⟩, -⟩ := hpaths
  exact local_exists? (isEntryName_documentFile hs hv) hr

theorem local_refuseBeside (hs : s.settings.SlashFree) {ps : List (String × NameFault)}
    (hr : ∀ p ∈ ps, reads (s.documentFile p.1)) :
    (s.refuseBeside name ps).Local s.root dir reads writes := by
  induction ps with
  | nil => exact local_pure ()
  | cons p ps ih =>
    have hrest := ih fun q hq => hr q (List.mem_cons_of_mem p hq)
    refine (local_hasDocument hs (hr p List.mem_cons_self)).bind fun _ present _ _ => ?_
    cases present
    · exact hrest
    · exact (local_refuse _).bind fun _ _ _ _ => hrest

theorem local_checkCollision (hs : s.settings.SlashFree) (name : String) :
    (s.checkCollision name).Local s.root dir (s.Consults name) writes := by
  rw [checkCollision_eq]
  refine local_refuseBeside hs fun p hp => ?_
  rcases mem_partners.mp hp with ⟨hname, -, -⟩ | ⟨hname, -⟩
  · exact .inr ⟨p.1, .inl hname, rfl⟩
  · exact .inr ⟨p.1, .inr hname, rfl⟩

theorem local_readDocument (hs : s.settings.SlashFree) (hv : PresetName.IsValid name) :
    (s.readDocument name).Local s.root dir (s.Consults name) writes := by
  refine (s.readsOnly_readDocument name).isLocal fun d d' h => ?_
  apply result_readDocument_congr
  rw [documentPath, readText, readText, readFile, readFile,
    h.find_join (isEntryName_documentFile hs hv) (.inl (s.documentFile_mem_files name))]

theorem local_generate (c : Config) (strict : Bool) :
    (s.generate c strict).Local s.root dir reads writes := by
  unfold generate
  refine (local_emit _).bind fun _ _ _ _ => ?_
  refine (local_of _).bind fun _ g _ _ => ?_
  exact (local_emitAll _).bind fun _ _ _ _ => local_pure g

theorem local_writeFragments (hs : s.settings.SlashFree) (name driver sdf : String) :
    (s.writeFragments name driver sdf).Local s.root dir (s.Consults name) (s.files name) := by
  have hdriver := s.driverFile_mem_files name
  have hsdf := s.sdfFile_mem_files name
  unfold writeFragments
  refine (local_of _).bind fun _ paths _ hpaths => ?_
  rw [yields_of, paths_eq_ok_iff] at hpaths
  obtain ⟨⟨hv, rfl⟩, -⟩ := hpaths
  refine (local_checkCollision hs name).bind fun _ _ _ _ => ?_
  refine local_ensureRoot.bind fun _ _ _ _ => ?_
  refine (local_removeOwn hs hv hdriver).bind fun _ _ _ _ => ?_
  refine (local_removeOwn hs hv hsdf).bind fun _ _ _ _ => ?_
  refine (local_writeOwn hs hv hdriver driver).bind fun _ _ _ _ => ?_
  refine (local_writeOwn hs hv hsdf sdf).bind fun _ _ _ _ => ?_
  exact (local_emit _).bind fun _ _ _ _ => local_pure _

theorem local_save (hs : s.settings.SlashFree) (c : Config) :
    (s.save c).Local s.root dir (s.Consults c.name) (s.files c.name) := by
  have hdocument := s.documentFile_mem_files c.name
  unfold save
  refine (local_of _).bind fun _ paths _ hpaths => ?_
  rw [yields_of, paths_eq_ok_iff] at hpaths
  obtain ⟨⟨hv, rfl⟩, -⟩ := hpaths
  have hwrite : (s.ensureRoot >>= fun _ =>
      writeText (s.artifacts c.name).document (Document.ofConfig c).encode >>= fun _ =>
        emit (.savedDocument c.name (s.artifacts c.name).document.text) >>= fun _ =>
          pure (s.artifacts c.name).document).Local s.root dir (s.Consults c.name)
            (s.files c.name) := by
    refine local_ensureRoot.bind fun _ _ _ _ => ?_
    refine (local_writeOwn hs hv hdocument _).bind fun _ _ _ _ => ?_
    exact (local_emit _).bind fun _ _ _ _ => local_pure _
  cases c.hasUnknown
  · exact hwrite
  · exact (local_refuse _).bind fun _ _ _ _ => hwrite

/-- What a publication depends on and what it changes. -/
theorem local_publish (hs : s.settings.SlashFree) (c : Config) (strict : Bool) :
    (s.publish c strict).Local s.root dir (s.Consults c.name) (s.files c.name) := by
  have hrest : (do
      let generated ← s.generate c strict
      let paths ← s.writeFragments c.name generated.driver generated.sdf
      let _ ← s.save c
      emit (.published c.name c.operations.length c.terminal generated.warnings.length)
      pure (⟨paths, generated⟩ : Published)).Local s.root dir (s.Consults c.name)
        (s.files c.name) := by
    refine (local_generate c strict).bind fun _ g _ _ => ?_
    refine (local_writeFragments hs c.name g.driver g.sdf).bind fun _ _ _ _ => ?_
    refine (local_save hs c).bind fun _ _ _ _ => ?_
    exact (local_emit _).bind fun _ _ _ _ => local_pure _
  unfold publish
  cases c.hasUnknown
  · exact hrest
  · exact (local_refuse _).bind fun _ _ _ _ => hrest

/-- What a regeneration depends on and what it changes. -/
theorem local_regenerate (hs : s.settings.SlashFree) (hv : PresetName.IsValid name)
    (strict : Bool) :
    (s.regenerate name strict).Local s.root dir (s.Consults name) (s.files name) := by
  unfold regenerate
  refine (local_readDocument hs hv).bind fun _ c _ _ => ?_
  refine (local_generate c strict).bind fun _ g _ _ => ?_
  refine (local_writeFragments hs name g.driver g.sdf).bind fun _ _ _ _ => ?_
  exact (local_emit _).bind fun _ _ _ _ => local_pure _

/-- What a removal depends on and what it changes. -/
theorem local_remove (hs : s.settings.SlashFree) (name : String) :
    (s.remove name).Local s.root dir (s.Consults name) (s.files name) := by
  unfold remove
  refine (local_of _).bind fun _ paths _ hpaths => ?_
  rw [yields_of, paths_eq_ok_iff] at hpaths
  obtain ⟨⟨hv, rfl⟩, -⟩ := hpaths
  refine (local_removeOwn hs hv (s.driverFile_mem_files name)).bind fun _ _ _ _ => ?_
  refine (local_removeOwn hs hv (s.sdfFile_mem_files name)).bind fun _ _ _ _ => ?_
  refine (local_removeOwn hs hv (s.documentFile_mem_files name)).bind fun _ _ _ _ => ?_
  exact (local_emit _).bind fun _ _ _ _ => local_pure _

end Store

end FractalShader
