import FractalShader.Proofs.Store.Exclusion
import FractalShader.Proofs.Store.Steps

/-!
# Unknown kinds never reach a document

Tags that the catalog does not know are read as `unknown`, and a configuration may hold
that kind anywhere: it was loaded so, or edited so.  It can be generated from, but what
is written as a document could not be read back as what it was, so both ways of writing
one refuse such a configuration before they touch the disk.

* `Document.Recognised` — a file that describes a preset of known kinds only;
* `Faithful` — under the file name of a document there is what was there at the start,
  or a recognised document; every step of every operation keeps it (`stepsKeep_faithful`);
* `Config.hasUnknown_eq_true_iff`, `save_of_unknown` — what is refused;
* `recognised_throughout` — both for any run of requests.
-/

namespace FractalShader

open FractalShader.Action FractalShader.Disk

/-- The content of a file is a document all of whose kinds the catalog knows. -/
def Document.Recognised (content : ByteArray) : Prop :=
  ∃ text document, String.fromUTF8? content = some text ∧ Document.decode text = .ok document ∧
    ∀ name, (document.toConfig name).hasUnknown = false

/-- What is written for a configuration of known kinds is a recognised document. -/
theorem Document.recognised_encode {c : Config} (h : c.hasUnknown = false) :
    Document.Recognised (Document.ofConfig c).encode.toUTF8 := by
  refine ⟨_, Document.ofConfig c, fromUTF8?_toUTF8 _, Document.decode_encode _, ?_⟩
  intro name
  exact h

/-- A configuration holds an unknown kind when its terminal is one or any of its folds is. -/
theorem Config.hasUnknown_eq_true_iff {c : Config} :
    c.hasUnknown = true ↔ c.terminal = .unknown ∨ .unknown ∈ c.operations :=
  decide_eq_true_iff

namespace Store

variable {s : Store} {d d' d₀ : Disk} {c : Config}

/-! ## Refusals -/

/-- A configuration with an unknown kind is not saved, and nothing happens. -/
theorem save_of_unknown (hv : PresetName.IsValid c.name) (h : c.hasUnknown = true) (d : Disk) :
    (s.save c).run d = ⟨.error (.unrecognisedKinds c.name), d, []⟩ := by
  have hpaths : ((of (s.paths c.name)).run d).result = .ok (s.artifacts c.name) :=
    s.paths_of_isValid hv
  unfold save
  rw [run_bind_ok hpaths, h]
  rfl

/-! ## Documents -/

/-- From `d₀` to `d`, wherever there is a file with the name of a document, it is as it was or it
is a recognised document. -/
def Faithful (s : Store) (d₀ d : Disk) : Prop :=
  ∀ n dir content, d.node? (s.documentFile n :: dir) = some (.file content) →
    d₀.node? (s.documentFile n :: dir) = some (.file content) ∨ Document.Recognised content

theorem Faithful.refl (s : Store) (d : Disk) : s.Faithful d d := by
  intro n dir content h
  exact .inl h

/-- Where files are new only under other names, or are recognised documents, nothing is lost. -/
theorem Faithful.step (h : s.Faithful d₀ d)
    (hnew : ∀ q content, d'.node? q = some (.file content) → d.node? q = some (.file content) ∨
      (∀ n dir, q ≠ s.documentFile n :: dir) ∨ Document.Recognised content) :
    s.Faithful d₀ d' := by
  intro n dir content hfile
  rcases hnew _ content hfile with hold | hother | hknown
  · exact h n dir content hold
  · exact absurd rfl (hother n dir)
  · exact .inr hknown

theorem preserves_faithful_ensureRoot (s : Store) : s.ensureRoot.Preserves (s.Faithful d₀) := by
  intro d h
  apply h.step
  intro q content hfile
  exact .inl (file_of_ensureRoot hfile)

theorem preserves_faithful_removeIfPresent (s : Store) (p : Path) :
    (removeIfPresent p).Preserves (s.Faithful d₀) := by
  intro d h
  apply h.step
  intro q content hfile
  exact .inl (file_of_removeIfPresent hfile)

/-- A text may be written under any other name, and a recognised document under every name. -/
theorem preserves_faithful_writeText {f text : String} (hf : IsEntryName f)
    (h : (∀ n, f ≠ s.documentFile n) ∨ Document.Recognised text.toUTF8) :
    (writeText (s.root.join f) text).Preserves (s.Faithful d₀) := by
  intro d hd
  apply hd.step
  intro q content hfile
  rcases file_of_writeText hfile with hold | ⟨rfl, dir, file, rfl, hl⟩
  · exact .inl hold
  · obtain rfl := name_of_locate_join hf hl
    right
    rcases h with hother | hknown
    · left
      intro n place hq
      exact hother n (List.cons.inj hq).1
    · exact .inr hknown

/-- Where the two extensions are plain, every step of every operation is faithful: fragments have
other names than documents, and a document is written from known kinds only. -/
theorem stepsKeep_faithful (hs : s.settings.Plain) (d₀ : Disk) :
    s.StepsKeep (s.Faithful d₀) where
  root := s.preserves_faithful_ensureRoot
  remove := s.preserves_faithful_removeIfPresent
  driver name _ hv :=
    preserves_faithful_writeText (isEntryName_driverFile hs.slashFree hv)
      (.inl fun n => driverFile_ne_documentFile_of_plain hs name n)
  sdf name _ hv :=
    preserves_faithful_writeText (isEntryName_sdfFile hs.slashFree hv)
      (.inl fun n => sdfFile_ne_documentFile_of_plain hs name n)
  document _ hv hknown :=
    preserves_faithful_writeText (isEntryName_documentFile hs.slashFree hv)
      (.inr (Document.recognised_encode hknown))

/-! ## A whole run -/

theorem faithful_diskAfter (hs : s.settings.Plain) (d₀ : Disk) (rs : List Session.Request) :
    s.Faithful d₀ (s.diskAfter d₀ rs) := by
  induction rs using List.reverseRecOn with
  | nil => exact Faithful.refl s d₀
  | append_singleton rs r ih =>
    have hstore := Session.store_serveAll (Session.start s) d₀ rs
    rw [diskAfter_concat]
    refine StepsKeep.serve ?_ ih r
    rw [hstore]
    exact stepsKeep_faithful hs d₀

/-- **Unknown kinds never reach a document.**  Ask anything of a store and of a session over it, in
any order and on any disk: each file under the name of a document still holds what it held at the
start, or is a document of known kinds only.  And a configuration with an unknown kind anywhere is
refused, by a publication and by the session that generates it, and also when it is saved under a
name that can be used: the error says so, the disk stays as it is, and nothing is reported. -/
theorem recognised_throughout (hs : s.settings.Plain) (d₀ : Disk) (rs : List Session.Request) :
    s.Faithful d₀ (s.diskAfter d₀ rs) ∧
      ∀ c : Config, c.terminal = .unknown ∨ .unknown ∈ c.operations → ∀ strict d,
        (s.publish c strict).run d = ⟨.error (.unrecognisedKinds c.name), d, []⟩ ∧
        (Session.mk s c).step (.generate strict) d =
          (⟨s, c⟩, ⟨.error (.unrecognisedKinds c.name), d, []⟩) ∧
        (PresetName.IsValid c.name →
          (s.save c).run d = ⟨.error (.unrecognisedKinds c.name), d, []⟩) := by
  refine ⟨faithful_diskAfter hs d₀ rs, ?_⟩
  intro c hc strict d
  have hunknown := Config.hasUnknown_eq_true_iff.mpr hc
  have hpublish := publish_of_unknown (s := s) hunknown strict d
  refine ⟨hpublish, ?_, fun hv => save_of_unknown hv hunknown d⟩
  have hgenerate : ((Session.mk s c).generate strict).run d =
      ⟨.error (.unrecognisedKinds c.name), d, []⟩ := hpublish
  rw [Session.step_generate, hgenerate]
  rfl

/-- An unknown fold is pushed, which cannot be generated; then the document of `Foo` is saved. -/
def pushThenSave : List Session.Request :=
  [.command (.edit (.push .unknown)), .command (.generate false),
    .store (.save ⟨"Foo", [.boxFold], .box⟩)]

/-- The document that is there after this run is a recognised one, and the configuration that was
edited is refused. -/
theorem recognised_throughout_push :
    (∃ content, (diskAfter ⟨⟨"shaders"⟩, default⟩ (Disk.empty ["scratch"]) pushThenSave).node?
        ["Foo_Conf.json", "shaders", "scratch"] = some (.file content) ∧
      Document.Recognised content) ∧
    ∀ d, (publish ⟨⟨"shaders"⟩, default⟩ ⟨"Default", [.unknown], .mandelbrot⟩ false).run d
      = ⟨.error (.unrecognisedKinds "Default"), d, []⟩ := by
  obtain ⟨hfaithful, hrefused⟩ := recognised_throughout (s := ⟨⟨"shaders"⟩, default⟩)
    Settings.plain_default (Disk.empty ["scratch"]) pushThenSave
  have hfile : (diskAfter ⟨⟨"shaders"⟩, default⟩ (Disk.empty ["scratch"]) pushThenSave).node?
      ["Foo_Conf.json", "shaders", "scratch"]
        = some (.file (Document.encode ⟨[.boxFold], .box⟩).toUTF8) := rfl
  refine ⟨⟨_, hfile, ?_⟩, ?_⟩
  · rcases hfaithful "Foo" ["shaders", "scratch"] _ hfile with hold | hknown
    · exact absurd hold (by decide)
    · exact hknown
  · intro d
    exact (hrefused ⟨"Default", [.unknown], .mandelbrot⟩ (.inr (by decide)) false d).1

end Store

end FractalShader
