import FractalShader.Proofs.Store.Partners
import FractalShader.Proofs.Store.Request

/-!
# Refusals touch nothing

Every operation of a store makes all its checks before its first change of the
disk, and a session keeps its configuration whenever a command fails.

* `readsOnly_load`, `readsOnly_list`, … — what only looks;
* `refusesFirst_writeFragments`, `refusesFirst_publish`, … — what changes the
  disk refuses first;
* `Session.refusal_touches_nothing` — any request that fails leaves the session,
  and unless it is the disk that fails, also the disk.
-/

namespace FractalShader

open FractalShader.Action

namespace Store

variable (s : Store)

/-! ## What only looks -/

theorem readsOnly_malformed {α : Type} (p : Path) (reason : String) :
    (malformed p reason : Action α).ReadsOnly :=
  (readsOnly_emit _).bind fun _ => readsOnly_refuse _

theorem readsOnly_readDocument (name : String) : (s.readDocument name).ReadsOnly := by
  refine (readsOnly_of _).bind fun paths => (readsOnly_look _).bind fun r => ?_
  split
  · exact readsOnly_malformed _ _
  · exact readsOnly_refuse _
  · split
    · exact readsOnly_malformed _ _
    · exact (readsOnly_emit _).bind fun _ => readsOnly_pure _

theorem readsOnly_tryLoad (name : String) : (s.tryLoad name).ReadsOnly := by
  refine (readsOnly_of _).bind fun paths => (readsOnly_ask _ _).bind fun present => ?_
  split
  · exact s.readsOnly_readDocument name
  · exact readsOnly_refuse _

theorem readsOnly_load (name : String) : (s.load name).ReadsOnly := by
  refine (s.readsOnly_tryLoad name).attempt.bind fun r => ?_
  split
  · exact readsOnly_pure _
  · split
    · exact (readsOnly_emit _).bind fun _ => readsOnly_pure _
    · exact readsOnly_refuse _

theorem readsOnly_list : s.list.ReadsOnly := by
  refine (readsOnly_look _).bind fun r => ?_
  split
  · exact readsOnly_pure _
  · exact readsOnly_refuse _
  · exact readsOnly_pure _

theorem readsOnly_generate (c : Config) (strict : Bool) : (s.generate c strict).ReadsOnly :=
  (readsOnly_emit _).bind fun _ => (readsOnly_of _).bind fun _ =>
    (readsOnly_emitAll _).bind fun _ => readsOnly_pure _

/-! ## What refuses first -/

theorem failsOnDisk_ensureRoot : s.ensureRoot.FailsOnDisk := failsOnDisk_request _ _

theorem failsOnDisk_writeText (p : Path) (text : String) : (writeText p text).FailsOnDisk :=
  failsOnDisk_request _ _

theorem failsOnDisk_removeIfPresent (p : Path) : (removeIfPresent p).FailsOnDisk :=
  failsOnDisk_request _ _

theorem paths_of_isValid {name : String} (h : PresetName.IsValid name) :
    s.paths name = .ok (s.artifacts name) := by
  rw [paths, PresetName.check_eq_ok_iff.mpr h]

theorem paths_eq_ok_iff {name : String} {p : ArtifactPaths} :
    s.paths name = .ok p ↔ PresetName.IsValid name ∧ p = s.artifacts name := by
  rw [← PresetName.check_eq_ok_iff, paths]
  cases PresetName.check name <;> simp [eq_comm]

/-- Once the checks of `save` are passed, only the disk can stop it. -/
theorem failsOnDisk_save {c : Config} (hname : PresetName.IsValid c.name)
    (hknown : c.hasUnknown = false) : (s.save c).FailsOnDisk := by
  refine (failsOnDisk_of_ok (s.paths_of_isValid hname)).bind fun paths => ?_
  rw [hknown]
  exact s.failsOnDisk_ensureRoot.bind fun _ => (failsOnDisk_writeText _ _).bind fun _ =>
    (failsOnDisk_emit _).bind fun _ => failsOnDisk_pure _

theorem refusesFirst_save (c : Config) : (s.save c).RefusesFirst := by
  refine (readsOnly_of _).bind_refusesFirst fun paths => ?_
  have hwrite : (s.ensureRoot >>= fun _ =>
      writeText paths.document (Document.ofConfig c).encode >>= fun _ =>
        emit (.savedDocument c.name paths.document.text) >>= fun _ =>
          pure paths.document).RefusesFirst :=
    (s.failsOnDisk_ensureRoot.bind fun _ => (failsOnDisk_writeText _ _).bind fun _ =>
      (failsOnDisk_emit _).bind fun _ => failsOnDisk_pure _).refusesFirst
  cases c.hasUnknown
  · exact hwrite
  · exact (readsOnly_refuse _).bind_refusesFirst fun _ => hwrite

/-- Once the checks of `writeFragments` are passed, only the disk can stop it. -/
theorem failsOnDisk_replacement (name driver sdf : String) (paths : ArtifactPaths) :
    FailsOnDisk (s.ensureRoot >>= fun _ => removeIfPresent paths.driver >>= fun _ =>
      removeIfPresent paths.sdf >>= fun _ => writeText paths.driver driver >>= fun _ =>
        writeText paths.sdf sdf >>= fun _ =>
          emit (.wroteFragments name paths.driver.text paths.sdf.text) >>= fun _ => pure paths) :=
  s.failsOnDisk_ensureRoot.bind fun _ => (failsOnDisk_removeIfPresent _).bind fun _ =>
    (failsOnDisk_removeIfPresent _).bind fun _ => (failsOnDisk_writeText _ _).bind fun _ =>
      (failsOnDisk_writeText _ _).bind fun _ => (failsOnDisk_emit _).bind fun _ =>
        failsOnDisk_pure _

theorem refusesFirst_writeFragments (name driver sdf : String) :
    (s.writeFragments name driver sdf).RefusesFirst := by
  refine (readsOnly_of _).bind_refusesFirst fun paths => ?_
  refine (s.readsOnly_checkCollision name).bind_refusesFirst fun _ => ?_
  exact (s.failsOnDisk_replacement name driver sdf paths).refusesFirst

/-- Fragments are written under names that can be used only. -/
theorem isValid_of_writeFragments {s : Store} {name driver sdf : String} {d d' : Disk}
    {p : ArtifactPaths} (h : (s.writeFragments name driver sdf).Yields d p d') :
    PresetName.IsValid name := by
  rw [writeFragments, yields_bind] at h
  obtain ⟨paths, d₁, hpaths, -⟩ := h
  exact (s.paths_eq_ok_iff.mp (yields_of.mp hpaths).1).1

/-- The name that `save` checks has been checked when the fragments were written, so a publication
fails on anything but the disk before its first change. -/
theorem refusesFirst_publish (c : Config) (strict : Bool) : (s.publish c strict).RefusesFirst := by
  cases hknown : c.hasUnknown with
  | true =>
    unfold publish
    rw [hknown]
    intro d e d' h _
    rcases fails_bind.mp h with h | ⟨_, _, h, -⟩
    · exact (fails_refuse.mp h).2
    · exact absurd h yields_refuse
  | false =>
    unfold publish
    rw [hknown]
    refine (s.readsOnly_generate c strict).bind_refusesFirst fun generated => ?_
    apply (s.refusesFirst_writeFragments c.name generated.driver generated.sdf).bind
    intro d p d' hw
    exact (s.failsOnDisk_save (isValid_of_writeFragments hw) hknown).bind fun _ =>
      (failsOnDisk_emit _).bind fun _ => failsOnDisk_pure _

theorem refusesFirst_regenerate (name : String) (strict : Bool) :
    (s.regenerate name strict).RefusesFirst := by
  refine (s.readsOnly_readDocument name).bind_refusesFirst fun c => ?_
  refine (s.readsOnly_generate c strict).bind_refusesFirst fun generated => ?_
  exact (s.refusesFirst_writeFragments name generated.driver generated.sdf).bind fun _ _ _ _ =>
    (failsOnDisk_emit _).bind fun _ => failsOnDisk_pure _

theorem refusesFirst_remove (name : String) : (s.remove name).RefusesFirst :=
  (readsOnly_of _).bind_refusesFirst fun _ =>
    ((failsOnDisk_removeIfPresent _).bind fun _ => (failsOnDisk_removeIfPresent _).bind fun _ =>
      (failsOnDisk_removeIfPresent _).bind fun _ => (failsOnDisk_emit _).bind fun _ =>
        failsOnDisk_pure _).refusesFirst

/-! ## Every request -/

theorem RefusesFirst.map {α β : Type} {x : Action α} (h : x.RefusesFirst) (f : α → β) :
    (x >>= fun a => pure (f a)).RefusesFirst :=
  h.bind fun _ _ _ _ => failsOnDisk_pure _

/-- Whatever is asked of a store, it refuses before it changes anything. -/
theorem refusesFirst_answer (r : Request) : (s.answer r).RefusesFirst := by
  cases r with
  | paths name => exact RefusesFirst.map (readsOnly_of _).refusesFirst _
  | load name => exact RefusesFirst.map (s.readsOnly_load name).refusesFirst _
  | tryLoad name => exact RefusesFirst.map (s.readsOnly_tryLoad name).refusesFirst _
  | readDocument name => exact RefusesFirst.map (s.readsOnly_readDocument name).refusesFirst _
  | list => exact RefusesFirst.map s.readsOnly_list.refusesFirst _
  | save c => exact RefusesFirst.map (s.refusesFirst_save c) _
  | writeFragments name driver sdf =>
    exact RefusesFirst.map (s.refusesFirst_writeFragments name driver sdf) _
  | publish c strict => exact RefusesFirst.map (s.refusesFirst_publish c strict) _
  | regenerate name strict => exact RefusesFirst.map (s.refusesFirst_regenerate name strict) _
  | remove name => exact RefusesFirst.map (s.refusesFirst_remove name) _

end Store

namespace Session

theorem readsOnly_rename (s : Session) (name : String) : ((rename name).action s).ReadsOnly := by
  rw [action_rename]
  refine (readsOnly_of _).bind fun _ => (s.store.readsOnly_load name).bind fun r => ?_
  split
  · exact (readsOnly_emit _).bind fun _ => readsOnly_pure _
  · exact readsOnly_pure _

/-- To give a name is to look at the disk only. -/
theorem readsOnly_perform_rename (s : Session) (name : String) :
    ((perform (.rename name)).action s).ReadsOnly := by
  rw [action_perform_rename]
  exact (s.readsOnly_rename name).bind fun _ => readsOnly_pure _

/-- To edit the configuration is not even to look. -/
theorem readsOnly_perform_edit (s : Session) (e : Edit) :
    ((perform (.edit e)).action s).ReadsOnly := by
  rw [action_perform_edit]
  exact (readsOnly_of _).bind fun _ => readsOnly_pure _

theorem refusesFirst_perform (s : Session) (c : Command) : ((perform c).action s).RefusesFirst := by
  cases c with
  | rename name => exact (s.readsOnly_perform_rename name).refusesFirst
  | generate strict =>
    rw [action_perform_generate]
    exact Store.RefusesFirst.map (s.store.refusesFirst_publish _ strict) _
  | edit e => exact (s.readsOnly_perform_edit e).refusesFirst

/-- **A request that fails touches nothing.**  Whatever is asked, on whatever disk: a failure
leaves the session as it was, and unless it is the disk that refused something, the whole disk as
well. -/
theorem refusal_touches_nothing (s : Session) (d : Disk) (r : Request) (e : PresetError)
    (h : (s.serve d r).2.result = .error e) :
    (¬ e.IsIo → (s.serve d r).2.disk = d) ∧ (s.serve d r).1 = s := by
  cases r with
  | store r =>
    refine ⟨?_, rfl⟩
    intro hio
    obtain ⟨a, ha⟩ | ⟨e', he⟩ := (s.store.answer r).yields_or_fails d
    · simp [serve, ha.1, Except.map] at h
    · simp only [serve, he.1, Except.map, Except.error.injEq] at h
      exact s.store.refusesFirst_answer r d e' _ he (h ▸ hio)
  | command c =>
    obtain ⟨⟨t, reply⟩, ht⟩ | ⟨e', he⟩ := ((perform c).action s).yields_or_fails d
    · simp [serve, (step_of_yields ht).2.1, Except.map] at h
    · obtain ⟨hs, hr, hd⟩ := step_of_fails he
      simp only [serve, hr, Except.map, Except.error.injEq] at h
      refine ⟨?_, hs⟩
      intro hio
      show (s.step c d).2.disk = d
      rw [hd]
      exact s.refusesFirst_perform c d e' _ he (h ▸ hio)
  | restart => exact absurd h (by simp [serve])

/-- Beside the document of `Foo`, the publication of `FooSDF` is refused and changes nothing. -/
theorem refusal_touches_nothing_collision :
    ∃ d : Disk, d.node? ["Foo_Conf.json", "shaders", "scratch"] = some (.file ByteArray.empty) ∧
      ((start ⟨⟨"shaders"⟩, default⟩).serve d
        (.store (.publish ⟨"FooSDF", [], .box⟩ false))).2.disk = d := by
  refine ⟨((Disk.empty ["scratch"]).put "shaders" ["scratch"] .directory).put "Foo_Conf.json"
    ["shaders", "scratch"] (.file ByteArray.empty), rfl, ?_⟩
  exact (refusal_touches_nothing (start ⟨⟨"shaders"⟩, default⟩) _
    (.store (.publish ⟨"FooSDF", [], .box⟩ false)) (.invalidName "FooSDF" .takesFragment) rfl).1 id

end Session

end FractalShader
