import FractalShader.Proofs.Fragment.Undecodable
import FractalShader.Proofs.Store.Stored
import FractalShader.Session

/-!
# Documents that cannot be used

A preset whose driver is there, but whose document cannot be decoded, is as good as
absent: to load it gives nothing, and a session that is given its name keeps what it
has.  This is so for every document that is a text.  That the bytes of a document are
not UTF-8 is reported as the disk reports it, and neither loading nor a session gets
past that.

* `Document.said?` — what the bytes of a document say;
* `Store.tryLoad_run`, `Store.tryLoad_run_of_missing`,
  `Store.load_yields_none_of_absent`, `Store.load_fails_of_tryLoad_fails` — how loading
  follows from reading;
* `Session.rename_yields_of_load`, `Session.rename_fails_of_load` — and giving a name
  from loading;
* `Degrades` — a document that cannot be used counts as none;
* `degrades_iff` — for which documents that is so.
-/

namespace FractalShader

open FractalShader.Action FractalShader.Disk

/-- What the bytes of a document say, when they are a text that can be decoded. -/
def Document.said? (content : ByteArray) : Option Document :=
  match String.fromUTF8? content with
  | none => none
  | some text => (Document.decode text).toOption

theorem Document.said?_of_text {content : ByteArray} {text : String}
    (h : String.fromUTF8? content = some text) :
    Document.said? content = (Document.decode text).toOption := by
  simp only [said?, h]

theorem Document.said?_eq_some_iff {content : ByteArray} {document : Document} :
    Document.said? content = some document ↔
      ∃ text, String.fromUTF8? content = some text ∧ Document.decode text = .ok document := by
  unfold said?
  cases String.fromUTF8? content with
  | none => simp
  | some text => cases hdecode : Document.decode text <;> simp [hdecode, Except.toOption]

namespace Store

variable {s : Store} {d d' : Disk} {name text : String} {content : ByteArray}

/-! ## Reading what is there -/

theorem readDocument_yields_of_said {document : Document} (hv : PresetName.IsValid name)
    (hcontent : d.readFile (s.documentPath name) = .ok content)
    (h : Document.said? content = some document) :
    (s.readDocument name).Yields d (document.toConfig name) d := by
  obtain ⟨text, htext, hdecode⟩ := Document.said?_eq_some_iff.mp h
  have hread := readText_eq_ok_iff.mpr ⟨content, hcontent, htext⟩
  exact readDocument_yields_iff.mpr ⟨hv, ⟨text, document, hread, hdecode, rfl⟩, rfl⟩

/-- A text that says nothing is reported as a document that cannot be decoded. -/
theorem readDocument_fails_of_unsaid (hv : PresetName.IsValid name)
    (hcontent : d.readFile (s.documentPath name) = .ok content)
    (htext : String.fromUTF8? content = some text) (h : Document.said? content = none) :
    ∃ reason, (s.readDocument name).Fails d
      (.malformedDocument (s.documentPath name).text reason) d := by
  have hread := readText_eq_ok_iff.mpr ⟨content, hcontent, htext⟩
  rw [Document.said?_of_text htext] at h
  cases hdecode : Document.decode text with
  | ok document => simp [hdecode, Except.toOption] at h
  | error fault => exact ⟨_, readDocument_fails_of_decode hv hread hdecode⟩

/-- Bytes that are no text are reported as a failure of the disk. -/
theorem readDocument_fails_of_notUtf8 (hv : PresetName.IsValid name)
    (hcontent : d.readFile (s.documentPath name) = .ok content)
    (htext : String.fromUTF8? content = none) :
    (s.readDocument name).Fails d (.io (s.documentPath name).text .notUtf8) d := by
  have hread : d.readText (s.artifacts name).document = .error .notUtf8 := by
    rw [readText, show d.readFile (s.artifacts name).document = .ok content from hcontent]
    simp only [htext]
  have hpaths : (of (s.paths name)).Yields d (s.artifacts name) d :=
    yields_of.mpr ⟨s.paths_of_isValid hv, rfl⟩
  have hlook : (look (·.readText (s.artifacts name).document)).Yields d (.error .notUtf8) d :=
    yields_look.mpr ⟨hread.symm, rfl⟩
  refine fails_bind.mpr (.inr ⟨_, _, hpaths, fails_bind.mpr (.inr ⟨_, _, hlook, ?_⟩)⟩)
  exact fails_refuse.mpr ⟨rfl, rfl⟩

/-- A document that is missing is reported, and a warning says so. -/
theorem readDocument_run_of_missing (hv : PresetName.IsValid name)
    (h : d.readText (s.documentPath name) = .error .notFound) : (s.readDocument name).run d =
      ⟨.error (.malformedDocument (s.documentPath name).text "document is missing"), d,
        [.malformedDocument (s.documentPath name).text "document is missing"]⟩ := by
  have hpaths : ((of (s.paths name)).run d).result = .ok (s.artifacts name) :=
    s.paths_of_isValid hv
  have hlook : ((look (·.readText (s.artifacts name).document)).run d).result =
      .ok (.error .notFound) := congrArg Except.ok h
  rw [readDocument, run_bind_ok hpaths]
  dsimp only [of]
  rw [run_bind_ok hlook]
  rfl

/-! ## Loading -/

/-- To load a preset is to read its document where the driver is there, and to refuse where it is
not. -/
theorem tryLoad_run_eq (hv : PresetName.IsValid name) {present : Bool}
    (hdriver : d.exists? (s.artifacts name).driver = .ok present) : (s.tryLoad name).run d =
      (if present then s.readDocument name else refuse (.notFound name)).run d := by
  have hpaths : ((of (s.paths name)).run d).result = .ok (s.artifacts name) :=
    s.paths_of_isValid hv
  have hask : ((ask (s.artifacts name).driver (·.exists? (s.artifacts name).driver)).run d).result =
      .ok present := by
    rw [run_ask, hdriver]
    rfl
  rw [tryLoad, run_bind_ok hpaths]
  dsimp only [of]
  rw [run_bind_ok hask]
  rfl

theorem tryLoad_run (hv : PresetName.IsValid name)
    (hdriver : d.exists? (s.artifacts name).driver = .ok true) :
    (s.tryLoad name).run d = (s.readDocument name).run d :=
  tryLoad_run_eq hv hdriver

/-- Nothing is reported about a driver that is missing. -/
theorem tryLoad_run_of_missing (hv : PresetName.IsValid name)
    (hdriver : d.exists? (s.artifacts name).driver = .ok false) :
    (s.tryLoad name).run d = ⟨.error (.notFound name), d, []⟩ :=
  tryLoad_run_eq hv hdriver

/-- What says that nothing usable is there is an answer to the question what is there. -/
theorem load_yields_none_of_absent {e : PresetError} (h : (s.tryLoad name).Fails d e d')
    (habsent : e.isAbsent = true) : (s.load name).Yields d none d' := by
  rw [load, yields_bind]
  refine ⟨.error e, d', yields_attempt.mpr h, ?_⟩
  simp only [habsent, if_true]
  exact yields_bind.mpr ⟨(), d', yields_emit.mpr rfl, yields_pure.mpr ⟨rfl, rfl⟩⟩

/-- Every other failure is passed on. -/
theorem load_fails_of_tryLoad_fails {e : PresetError} (h : (s.tryLoad name).Fails d e d')
    (habsent : e.isAbsent = false) : (s.load name).Fails d e d' := by
  rw [load, fails_bind]
  refine .inr ⟨.error e, d', yields_attempt.mpr h, ?_⟩
  simp only [habsent, Bool.false_eq_true, if_false]
  exact fails_refuse.mpr ⟨rfl, rfl⟩

end Store

/-! ## Giving a name -/

namespace Session

variable {s : Session} {d d' : Disk} {name : String}

/-- What a session becomes when it is given a name under which this was loaded. -/
def renamed (s : Session) (name : String) : Option Config → Session × RenameOutcome
  | some c => ({ s with config := c }, .loaded)
  | none => ({ s with config := { s.config with name } }, .kept)

/-- To give a session a name is to load what is stored under it. -/
theorem rename_yields_iff {r : Session × RenameOutcome} : ((rename name).action s).Yields d r d' ↔
    PresetName.IsValid name ∧
      ∃ found, (s.store.load name).Yields d found d' ∧ r = s.renamed name found := by
  rw [action_rename]
  constructor
  · intro h
    obtain ⟨_, d₁, hcheck, hnamed⟩ := yields_bind.mp h
    obtain ⟨hv, rfl⟩ := yields_of.mp hcheck
    obtain ⟨found, d₂, hload, hkept⟩ := yields_bind.mp hnamed
    refine ⟨PresetName.check_eq_ok_iff.mp hv, found, ?_⟩
    cases found with
    | some c =>
      simp only [yields_bind, yields_emit, yields_pure] at hkept
      obtain ⟨_, _, rfl, rfl, rfl⟩ := hkept
      exact ⟨hload, rfl⟩
    | none =>
      obtain ⟨rfl, rfl⟩ := yields_pure.mp hkept
      exact ⟨hload, rfl⟩
  · rintro ⟨hv, found, hload, rfl⟩
    refine yields_bind.mpr ⟨(), d, yields_of.mpr ⟨PresetName.check_eq_ok_iff.mpr hv, rfl⟩, ?_⟩
    refine yields_bind.mpr ⟨found, d', hload, ?_⟩
    cases found with
    | some c => exact yields_bind.mpr ⟨(), d', yields_emit.mpr rfl, yields_pure.mpr ⟨rfl, rfl⟩⟩
    | none => exact yields_pure.mpr ⟨rfl, rfl⟩

theorem rename_yields_of_load (hv : PresetName.IsValid name) {found : Option Config}
    (h : (s.store.load name).Yields d found d') : ∃ r, ((rename name).action s).Yields d r d' :=
  ⟨_, rename_yields_iff.mpr ⟨hv, found, h, rfl⟩⟩

theorem rename_fails_of_load (hv : PresetName.IsValid name) {e : PresetError}
    (h : (s.store.load name).Fails d e d') : ((rename name).action s).Fails d e d' := by
  have hcheck : (of (PresetName.check name)).Yields d () d :=
    yields_of.mpr ⟨PresetName.check_eq_ok_iff.mpr hv, rfl⟩
  rw [action_rename]
  exact fails_bind.mpr (.inr ⟨_, _, hcheck, fails_bind.mpr (.inl h)⟩)

/-- What is held under a name that was given has that name. -/
theorem name_renamed {found : Option Config} (h : (s.store.load name).Yields d found d') :
    (s.renamed name found).1.config.name = name := by
  cases found with
  | some c => exact Store.name_of_load h
  | none => rfl

/-- A session that was given a name has it. -/
theorem name_of_rename {t : Session} {outcome : RenameOutcome}
    (h : ((rename name).action s).Yields d (t, outcome) d') :
    PresetName.IsValid name ∧ t.config.name = name := by
  obtain ⟨hv, found, hload, ht⟩ := rename_yields_iff.mp h
  have hname := name_renamed hload
  rw [← ht] at hname
  exact ⟨hv, hname⟩

end Session

/-! ## What counts as none -/

section Degrades

variable {s : Store} {d : Disk} {name : String} {content : ByteArray}

/-- The preset `name`, whose document holds the bytes `content`, is loaded when they say something,
and counts as absent when they do not; so every session can be given its name. -/
structure Degrades (s : Store) (d : Disk) (name : String) (content : ByteArray) : Prop where
  said : ∀ document, Document.said? content = some document →
    (s.load name).Yields d (some (document.toConfig name)) d
  unsaid : Document.said? content = none →
    (s.load name).Yields d none d ∧
      ∃ path reason, (s.tryLoad name).Fails d (.malformedDocument path reason) d
  renamed : ∀ session : Session, session.store = s →
    ∃ r, ((Session.rename name).action session).Yields d r d

/-- Bytes that are no text stop loading, and giving the name. -/
theorem load_fails_of_notUtf8 (hv : PresetName.IsValid name)
    (hdriver : d.exists? (s.artifacts name).driver = .ok true)
    (hcontent : d.readFile (s.documentPath name) = .ok content)
    (htext : String.fromUTF8? content = none) :
    (s.load name).Fails d (.io (s.documentPath name).text .notUtf8) d ∧
      ∀ session : Session, session.store = s →
        ((Session.rename name).action session).Fails d
          (.io (s.documentPath name).text .notUtf8) d := by
  have hread := Store.readDocument_fails_of_notUtf8 hv hcontent htext
  have htry : (s.tryLoad name).Fails d (.io (s.documentPath name).text .notUtf8) d := by
    rwa [Fails, Store.tryLoad_run hv hdriver]
  have hload := Store.load_fails_of_tryLoad_fails htry rfl
  refine ⟨hload, ?_⟩
  rintro session rfl
  exact Session.rename_fails_of_load hv hload

/-- **A document that cannot be used counts as none, as long as it is a text.**  Whatever the disk
and the store, and whatever the document of a preset with a driver holds. -/
theorem degrades_iff (hv : PresetName.IsValid name)
    (hdriver : d.exists? (s.artifacts name).driver = .ok true)
    (hcontent : d.readFile (s.documentPath name) = .ok content) :
    Degrades s d name content ↔ ∃ text, String.fromUTF8? content = some text := by
  constructor
  · intro h
    obtain ⟨r, hy⟩ := h.renamed (Session.start s) rfl
    cases htext : String.fromUTF8? content with
    | some text => exact ⟨text, rfl⟩
    | none =>
      obtain ⟨-, hfail⟩ := load_fails_of_notUtf8 hv hdriver hcontent htext
      exact absurd (hfail (Session.start s) rfl) hy.not_fails
  · rintro ⟨text, htext⟩
    have hsaid : ∀ document, Document.said? content = some document →
        (s.load name).Yields d (some (document.toConfig name)) d := fun document h =>
      Store.load_yields_some hdriver (Store.readDocument_yields_of_said hv hcontent h)
    have hunsaid : Document.said? content = none → (s.load name).Yields d none d ∧
        ∃ path reason, (s.tryLoad name).Fails d (.malformedDocument path reason) d := by
      intro h
      obtain ⟨reason, hread⟩ := Store.readDocument_fails_of_unsaid hv hcontent htext h
      have htry : (s.tryLoad name).Fails d
          (.malformedDocument (s.documentPath name).text reason) d := by
        rwa [Fails, Store.tryLoad_run hv hdriver]
      exact ⟨Store.load_yields_none_of_absent htry rfl, _, reason, htry⟩
    refine ⟨hsaid, hunsaid, ?_⟩
    rintro session rfl
    cases h : Document.said? content with
    | some document => exact Session.rename_yields_of_load hv (hsaid document h)
    | none => exact Session.rename_yields_of_load hv (hunsaid h).1

end Degrades

/-! ## Two documents -/

/-- A disk on which `Foo` has a driver and a document of these bytes. -/
def documentOf (content : ByteArray) : Disk :=
  (((Disk.empty ["scratch"]).put "shaders" ["scratch"] .directory).put "Foo.ush"
    ["shaders", "scratch"] (.file "".toUTF8)).put "Foo_Conf.json" ["shaders", "scratch"]
      (.file content)

/-- A text that is no document counts as none. -/
theorem degrades_not_json :
    Degrades ⟨⟨"shaders"⟩, default⟩ (documentOf "not json".toUTF8) "Foo" "not json".toUTF8 ∧
      (Store.load ⟨⟨"shaders"⟩, default⟩ "Foo").Yields (documentOf "not json".toUTF8) none
        (documentOf "not json".toUTF8) := by
  have hdegrades : Degrades ⟨⟨"shaders"⟩, default⟩ (documentOf "not json".toUTF8) "Foo"
      "not json".toUTF8 :=
    (degrades_iff (by decide) rfl rfl).mpr ⟨_, fromUTF8?_toUTF8 _⟩
  obtain ⟨fault, hfault⟩ : ∃ fault, Document.decode "not json" = .error fault :=
    Document.decode_of_head rfl (by decide) (by decide) (by decide)
  have hunsaid : Document.said? "not json".toUTF8 = none := by
    rw [Document.said?_of_text (fromUTF8?_toUTF8 _), hfault]
    rfl
  exact ⟨hdegrades, (hdegrades.unsaid hunsaid).1⟩

/-- **A document that is not a text is not taken for none.**  A single byte that no text begins with
stops loading the preset and giving its name to a session. -/
theorem load_fails_of_stray_byte :
    ¬ Degrades ⟨⟨"shaders"⟩, default⟩ (documentOf ⟨#[0xFF]⟩) "Foo" ⟨#[0xFF]⟩ ∧
      (Store.load ⟨⟨"shaders"⟩, default⟩ "Foo").Fails (documentOf ⟨#[0xFF]⟩)
        (.io "shaders/Foo_Conf.json" .notUtf8) (documentOf ⟨#[0xFF]⟩) := by
  have htext : String.fromUTF8? ⟨#[0xFF]⟩ = none := by decide
  have hdriver : (documentOf ⟨#[0xFF]⟩).exists?
      (Store.artifacts ⟨⟨"shaders"⟩, default⟩ "Foo").driver = .ok true := rfl
  obtain ⟨hload, hrename⟩ := load_fails_of_notUtf8 (by decide) hdriver rfl htext
  refine ⟨fun h => ?_, hload⟩
  obtain ⟨r, hy⟩ := h.renamed (Session.start _) rfl
  exact hy.not_fails (hrename _ rfl)

end FractalShader
