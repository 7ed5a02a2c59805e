import FractalShader.Proofs.Store.Footprint
import FractalShader.Proofs.Store.Request

/-!
# Operations that can be made in either order

Two operations on different presets can be made in either order, unless the name
of one is that of the other with `SDF` appended: nothing that one of them writes
is anything that the other one writes or looks at.

* `Action.Commute` — two actions that lead to the same in either order;
* `Action.Local.commute` — actions with separate footprints do;
* `Operation` — what changes the presets of a store;
* `commute_of_unrelated` — operations on unrelated names commute;
* `not_commute_fooSDF` — two that do not.
-/

namespace FractalShader

open FractalShader.Disk

namespace Action

variable {α β : Type}

/-- On the disk `d`, each of the two actions has the same result before the other one and after it,
and in either order they leave the same tree behind. -/
structure Commute (x : Action α) (y : Action β) (d : Disk) : Prop where
  left : (x.run (y.run d).disk).result = (x.run d).result
  right : (y.run (x.run d).disk).result = (y.run d).result
  disk : (y.run (x.run d).disk).disk.SameTree (x.run (y.run d).disk).disk

/-- A local action leaves a disk as it was where it makes no changes. -/
theorem Local.alike_of_disjoint {x : Action α} {p : Path} {dir : Place}
    {reads reads' : String → Prop} {writes : List String} {d : Disk}
    (hx : x.Local p dir reads writes) (hd : d.directoryAt p = .ok dir)
    (hother : ∀ f ∈ writes, ¬ reads' f) : Alike p dir reads' d (x.run d).disk := by
  obtain ⟨-, ps, hps, -, hmem⟩ := hx d d (.refl hd)
  refine .of_patched hd hps ?_
  intro f hf
  exact lookup_eq_none hmem fun hc => hother f hc hf

/-- Two local actions commute when neither changes what the other one looks at or changes. -/
theorem Local.commute {x : Action α} {y : Action β} {p : Path} {dir : Place}
    {reads reads' : String → Prop} {writes writes' : List String} {d : Disk}
    (hx : x.Local p dir reads writes) (hy : y.Local p dir reads' writes')
    (hd : d.directoryAt p = .ok dir) (hxy : ∀ f ∈ writes, ¬ reads' f)
    (hyx : ∀ f ∈ writes', ¬ reads f) (hw : ∀ f ∈ writes, f ∉ writes') : x.Commute y d := by
  -- each action meets a disk that looks to it like the one before the other
  have hafterx : Alike p dir reads' d (x.run d).disk := hx.alike_of_disjoint hd hxy
  have haftery : Alike p dir reads d (y.run d).disk := hy.alike_of_disjoint hd hyx
  obtain ⟨hleft, ps, hps, hps', hmem⟩ := hx d _ haftery
  obtain ⟨hright, qs, hqs, hqs', hmem'⟩ := hy d _ hafterx
  refine ⟨hleft, hright, hps.sameTree_of_disjoint hqs' hqs hps' ?_⟩
  intro f
  by_cases hf : f ∈ writes
  · exact .inr (lookup_eq_none hmem' (hw f hf))
  · exact .inl (lookup_eq_none hmem hf)

end Action

namespace Store

open FractalShader.Action

/-! ## Operations -/

/-- What changes the presets of a store. -/
inductive Operation where
  | publish (c : Config) (strict : Bool)
  | regenerate (name : String) (strict : Bool)
  | remove (name : String)

namespace Operation

/-- The preset that an operation is about. -/
def name : Operation → String
  | publish c _ => c.name
  | regenerate name _ => name
  | remove name => name

/-- The operation as a request to the store. -/
def request : Operation → Request
  | publish c strict => .publish c strict
  | regenerate name strict => .regenerate name strict
  | remove name => .remove name

variable {s : Store} {d : Disk} {dir : Place} {x y : Operation}

/-- What an operation depends on and what it changes. -/
theorem local_answer (hs : s.settings.SlashFree) (hv : PresetName.IsValid x.name) :
    (s.answer x.request).Local s.root dir (s.Consults x.name) (s.files x.name) := by
  cases x with
  | publish c strict => exact (local_publish hs c strict).bind fun _ _ _ _ => local_pure _
  | regenerate name strict =>
    exact (local_regenerate hs hv strict).bind fun _ _ _ _ => local_pure _
  | remove name => exact (local_remove hs name).bind fun _ _ _ _ => local_pure _

end Operation

/-- An operation on `m` does not look at the files of a preset `n` when neither name is the other
one with `SDF` appended. -/
theorem not_consults_of_mem_files {s : Store} (hs : s.settings.Plain) {n m : String} (hne : n ≠ m)
    (hnm : n ≠ Fragment.sdfStem m) (hmn : m ≠ Fragment.sdfStem n) {f : String}
    (hf : f ∈ s.files n) : ¬ s.Consults m f := by
  rintro (hfile | ⟨partner, hpartner, rfl⟩)
  · rcases shared_file hs hne hf hfile with ⟨h, -⟩ | ⟨h, -⟩
    · exact hmn h
    · exact hnm h
  · refine documentFile_not_mem_files hs ?_ hf
    rintro rfl
    rcases hpartner with h | h
    · exact hmn h
    · exact hnm h

/-- **Operations on unrelated names commute.**  Where the directory of the store is there, whatever
it holds, two operations on different names, neither of which is the other one with `SDF` appended,
have the same results in either order, errors included, and leave the same tree behind. -/
theorem commute_of_unrelated {s : Store} {d : Disk} {dir : Place} {x y : Operation}
    (hs : s.settings.Plain) (hd : d.directoryAt s.root = .ok dir)
    (hx : PresetName.IsValid x.name) (hy : PresetName.IsValid y.name) (hne : x.name ≠ y.name)
    (hxy : x.name ≠ Fragment.sdfStem y.name) (hyx : y.name ≠ Fragment.sdfStem x.name) :
    (s.answer x.request).Commute (s.answer y.request) d := by
  refine (Operation.local_answer hs.slashFree hx).commute
    (Operation.local_answer hs.slashFree hy) hd ?_ ?_ ?_
  · intro f hf
    exact not_consults_of_mem_files hs hne hxy hyx hf
  · intro f hf
    exact not_consults_of_mem_files hs hne.symm hyx hxy hf
  · intro f hf hf'
    exact not_consults_of_mem_files hs hne hxy hyx hf (.inl hf')

/-- A store with default settings. -/
def shaders : Store := ⟨⟨"shaders"⟩, default⟩

/-- The disk after `Foo` was published there. -/
def fooInShaders : Disk :=
  ((shaders.publish ⟨"Foo", [.boxFold], .box⟩ true).run (Disk.empty ["scratch"])).disk

/-- After `Foo` was published, its removal and the publication of `FooSDFSDF` commute. -/
theorem commute_foo_fooSDFSDF :
    (∃ dir, fooInShaders.directoryAt shaders.root = .ok dir) ∧
      (shaders.answer (.remove "Foo")).Commute
        (shaders.answer (.publish ⟨"FooSDFSDF", [.mengerFold], .sphere⟩ true)) fooInShaders :=
  ⟨⟨_, rfl⟩, commute_of_unrelated (x := .remove "Foo")
    (y := .publish ⟨"FooSDFSDF", [.mengerFold], .sphere⟩ true) Settings.plain_default rfl
    (by decide) (by decide) (by decide) (by decide) (by decide)⟩

/-- **Two operations that do not commute.**  After `Foo` was published, `FooSDF` can be published
only after the removal of `Foo`. -/
theorem not_commute_fooSDF :
    ¬ (shaders.answer (.remove "Foo")).Commute
      (shaders.answer (.publish ⟨"FooSDF", [], .sphere⟩ true)) fooInShaders := by
  intro h
  have hsame : Except.ok _ = Except.error (PresetError.invalidName "FooSDF" .takesFragment) :=
    h.right
  exact nomatch hsame

end Store

end FractalShader
