import FractalShader.Proofs.Cli.Generation
import FractalShader.Proofs.Store.Sparing

/-!
# Opening a preset and generating it again

A fresh session is given the name of a preset and then generates, without an edit in
between.  If the driver marks the preset as existing, the session loads what the
document of that name says, and publishes that; if there is no driver, it keeps its own
fresh configuration under that name, and publishes this; and if the disk cannot tell, the
name is not given, and nothing is published.  So a document with its driver says the same
afterwards, and one without is replaced.

* `named` — a fresh session that is told a name; `Opened` — what it holds then;
* `reopened` — one that is told to generate as well;
* `Reopened` — how that ends;
* `document_after_reopen` — what the document says afterwards;
* `reopen_replaces_document` — documents that say something else then.
-/

namespace FractalShader

open FractalShader.Action FractalShader.Disk

namespace Session

variable {s : Store} {d : Disk} {name : String} {c : Config} {strict : Bool}

/-- Give the session a name and generate what it then holds. -/
def reopen (name : String) (strict : Bool) : Turn Store.Published := do
  let _ ← rename name
  let session ← Turn.get
  Turn.act (session.generate strict)

/-- A fresh session, after it was told a name. -/
def named (s : Store) (d : Disk) (name : String) : Session × Outcome RenameOutcome :=
  (rename name).run (start s) d

/-- A fresh session, after it was told a name and, where that succeeded, to generate. -/
def reopened (s : Store) (d : Disk) (name : String) (strict : Bool) :
    Session × Outcome Store.Published :=
  (reopen name strict).run (start s) d

/-! ## Giving the name -/

/-- What it is to tell a fresh session a name of which the document says `c`.  Nothing happens on
the disk.  Where the driver is there, the session holds `c`; where it is not, the session holds its
own configuration under that name; and where the disk cannot tell, giving the name fails, and the
session is the fresh one. -/
structure Opened (s : Store) (d : Disk) (name : String) (c : Config) : Prop where
  disk : (named s d name).2.disk = d
  loaded : d.exists? (s.artifacts name).driver = .ok true →
    (named s d name).1 = ⟨s, c⟩ ∧ (named s d name).2.result = .ok .loaded
  kept : d.exists? (s.artifacts name).driver = .ok false →
    (named s d name).1 = ⟨s, { (default : Config) with name }⟩ ∧
      (named s d name).2.result = .ok .kept
  failed : ∀ cause, d.exists? (s.artifacts name).driver = .error cause →
    (named s d name).1 = start s ∧
      (named s d name).2.result = .error (.io (s.artifacts name).driver.text cause)

/-- The name is given where loading it succeeds. -/
theorem named_of_load {found : Option Config} (hv : PresetName.IsValid name)
    (hload : (s.load name).Yields d found d) :
    (named s d name).1 = ((start s).renamed name found).1 ∧
      (named s d name).2.result = .ok ((start s).renamed name found).2 := by
  have hy : ((rename name).action (start s)).Yields d ((start s).renamed name found) d :=
    rename_yields_iff.mpr ⟨hv, found, hload, rfl⟩
  obtain ⟨hsession, hresult, -⟩ := Turn.action_yields_iff.mp hy
  exact ⟨hsession, hresult⟩

/-- And where that fails, the session is the one that it was. -/
theorem named_of_load_fails {e : PresetError} (hv : PresetName.IsValid name)
    (hload : (s.load name).Fails d e d) :
    (named s d name).1 = start s ∧ (named s d name).2.result = .error e := by
  have hfail := rename_fails_of_load (s := start s) hv hload
  have hresult := (Turn.action_fails_iff.mp hfail).1
  exact ⟨allOrNothing_rename name (start s) d e hresult, hresult⟩

theorem opened (hread : (s.readDocument name).Yields d c d) : Opened s d name c := by
  have hv := (Store.readDocument_yields_iff.mp hread).1
  exact {
    disk := (start s).readsOnly_rename name d
    loaded := fun hdriver => named_of_load hv (Store.load_yields_some hdriver hread)
    kept := fun hdriver => named_of_load hv (Store.load_yields_none hv hdriver)
    failed := fun _ hdriver => named_of_load_fails hv (Store.load_fails hv hdriver) }

/-- A session that was given its name has it, whatever it holds, and is over its store. -/
theorem named_of_ok {outcome : RenameOutcome} (h : (named s d name).2.result = .ok outcome) :
    (named s d name).1.config.name = name ∧ (named s d name).1.store = s :=
  ⟨(name_of_rename (Turn.action_yields_iff.mpr ⟨rfl, h, rfl⟩)).2,
    keepsStore_rename name (start s) d⟩

/-! ## Generating -/

/-- Where the name was not given, nothing else is done. -/
theorem reopened_of_error {e : PresetError} (h : (named s d name).2.result = .error e)
    (strict : Bool) :
    reopened s d name strict =
      ((named s d name).1, ⟨.error e, (named s d name).2.disk, (named s d name).2.events⟩) :=
  Turn.run_bind_error h

/-- Otherwise what the session holds is published. -/
theorem reopened_of_ok {outcome : RenameOutcome} (h : (named s d name).2.result = .ok outcome)
    (strict : Bool) :
    (reopened s d name strict).1 = (named s d name).1 ∧
      (reopened s d name strict).2.result =
        ((s.publish (named s d name).1.config strict).run d).result ∧
      (reopened s d name strict).2.disk =
        ((s.publish (named s d name).1.config strict).run d).disk := by
  have hdisk : (named s d name).2.disk = d := (start s).readsOnly_rename name d
  have hrun : reopened s d name strict = _ := Turn.run_bind_ok h
  rw [hrun, Turn.run_get_bind]
  show _ ∧ (((named s d name).1.store.publish _ strict).run (named s d name).2.disk).result = _ ∧
    (((named s d name).1.store.publish _ strict).run (named s d name).2.disk).disk = _
  rw [(named_of_ok h).2, hdisk]
  exact ⟨rfl, rfl, rfl⟩

/-- How it ends to tell a fresh session a name and to generate: the session is the one that the
name left, and it published what it holds, which the document then says; or it failed to publish
that, and left the document alone, unless the path of a fragment leads to it; or the name was not
given, and nothing was done. -/
structure Reopened (s : Store) (d : Disk) (name : String) (strict : Bool) : Prop where
  session : (reopened s d name strict).1 = (named s d name).1
  outcome :
    ((named s d name).2.result.isOk = true ∧ ∃ p d',
      (reopened s d name strict).2.result = .ok p ∧ (reopened s d name strict).2.disk = d' ∧
        (s.publish (named s d name).1.config strict).Yields d p d' ∧
        (s.readDocument name).Yields d' (named s d name).1.config d') ∨
    ((named s d name).2.result.isOk = true ∧ ∃ e d',
      (reopened s d name strict).2.result = .error e ∧ (reopened s d name strict).2.disk = d' ∧
        (s.publish (named s d name).1.config strict).Fails d e d' ∧
        (s.FragmentsApart d name → s.DocumentUntouched name d d')) ∨
    ∃ e, (named s d name).2.result = .error e ∧
      (reopened s d name strict).2.result = .error e ∧ (reopened s d name strict).2.disk = d

theorem reopened_cases (hread : (s.readDocument name).Yields d c d) (strict : Bool) :
    Reopened s d name strict := by
  cases hr : (named s d name).2.result with
  | error e =>
    have hrun := reopened_of_error hr strict
    exact ⟨by rw [hrun], .inr (.inr ⟨e, hr, by rw [hrun], by rw [hrun]; exact (opened hread).disk⟩)⟩
  | ok outcome =>
    obtain ⟨hsession, hresult, hdisk⟩ := reopened_of_ok hr strict
    obtain ⟨hname, -⟩ := named_of_ok hr
    have hok : (named s d name).2.result.isOk = true := by rw [hr]; rfl
    refine ⟨hsession, ?_⟩
    rcases (s.publish (named s d name).1.config strict).yields_or_fails d with ⟨p, hy⟩ | ⟨e, hfail⟩
    · have hsaid := Store.readDocument_of_publish hy
      rw [hname] at hsaid
      exact .inl ⟨hok, p, _, hresult.trans hy.1, hdisk, hy, hsaid⟩
    · refine .inr (.inl ⟨hok, e, _, hresult.trans hfail.1, hdisk, hfail, fun hapart => ?_⟩)
      have hv := (Store.readDocument_yields_iff.mp hread).1
      obtain ⟨content, hcontent⟩ := Store.readFile_of_readDocument hread
      exact Store.documentUntouched_of_publish_fails hname hv hapart hcontent hfail

/-- The command that generates a preset, without an option that edits it, does the same on the
disk. -/
theorem disk_generate_task (s : Store) (name : String) (strict : Bool) (d : Disk) :
    (((Cli.Command.generate name [] false none strict).task s).run.run d).disk
      = (reopened s d name strict).2.disk := by
  have haction : (reopened s d name strict).2.disk =
      (((reopen name strict).action (start s)).run d).disk := rfl
  rw [haction, Cli.task_generate, reopen, Turn.action_bind]
  rcases ((rename name).action (start s)).yields_or_fails d with
    ⟨⟨session, outcome⟩, hy⟩ | ⟨e, hfail⟩
  · rw [hy.disk_bind, Cli.disk_doing_bind_of_yields hy]
    cases outcome
    · exact Cli.disk_publishing name session strict _
    · exact Cli.disk_publishing name session strict _
  · rw [hfail.disk_bind, Cli.disk_doing_bind_of_fails hfail]

/-! ## What the document says afterwards -/

/-- What the session holds is `c` where its name was given and the driver is not missing. -/
theorem config_of_ok (hread : (s.readDocument name).Yields d c d)
    (hdriver : d.exists? (s.artifacts name).driver ≠ .ok false)
    (hok : (named s d name).2.result.isOk = true) : (named s d name).1.config = c := by
  cases hx : d.exists? (s.artifacts name).driver with
  | error cause =>
    rw [((opened hread).failed cause hx).2] at hok
    exact nomatch hok
  | ok b =>
    cases b with
    | true => rw [((opened hread).loaded hx).1]
    | false => exact absurd hx hdriver

/-- Without slashes in the extensions, no path of a fragment leads to a document that is read. -/
theorem fragmentsApart_of_readDocument (hread : (s.readDocument name).Yields d c d)
    (hslash : s.settings.SlashFree) : s.FragmentsApart d name := by
  have hv := (Store.readDocument_yields_iff.mp hread).1
  obtain ⟨content, hcontent⟩ := Store.readFile_of_readDocument hread
  obtain ⟨dir, file, hlocate, -, -⟩ := readFile_eq_ok_iff.mp hcontent
  exact Store.fragmentsApart_of_slashFree hslash hv hlocate

/-- A configuration with unknown kinds is not published, and nothing is changed. -/
theorem disk_reopened_of_unknown (hread : (s.readDocument name).Yields d c d)
    (hdriver : d.exists? (s.artifacts name).driver ≠ .ok false) (hunknown : c.hasUnknown = true) :
    (reopened s d name strict).2.disk = d := by
  rcases (reopened_cases hread strict).outcome with
    ⟨hok, p, d', -, -, hy, -⟩ | ⟨hok, e, d', -, hdisk, hfail, -⟩ | ⟨e, -, -, hdisk⟩
  · rw [config_of_ok hread hdriver hok] at hy
    exact absurd (Store.publish_fails_of_unknown hunknown strict) hy.not_fails
  · rw [config_of_ok hread hdriver hok] at hfail
    rw [hdisk, ← hfail.2]
    exact (Store.publish_fails_of_unknown hunknown strict).2
  · exact hdisk

/-- **What a document says after its preset was opened and generated again without an edit.**
Whatever the disk holds, when the document of `name` says `c`: what a fresh session holds once it
was told the name is what `Opened` says, and how generating that ends is what `Reopened` says.  With
the driver there, or with a disk that cannot tell, the document says `c` afterwards, as long as no
path of a fragment leads to it, which none does without slashes in the extensions; and if `c` has
unknown kinds, the whole disk is as it was.  The command line does the same on the disk. -/
theorem document_after_reopen (hread : (s.readDocument name).Yields d c d) (strict : Bool) :
    Opened s d name c ∧ Reopened s d name strict ∧
    (s.settings.SlashFree → s.FragmentsApart d name) ∧
    (d.exists? (s.artifacts name).driver ≠ .ok false →
      (s.FragmentsApart d name → ∃ d', (reopened s d name strict).2.disk = d' ∧
        (s.readDocument name).Yields d' c d') ∧
      (c.hasUnknown = true → (reopened s d name strict).2.disk = d)) ∧
    (((Cli.Command.generate name [] false none strict).task s).run.run d).disk
      = (reopened s d name strict).2.disk := by
  refine ⟨opened hread, reopened_cases hread strict, fragmentsApart_of_readDocument hread,
    fun hdriver => ⟨fun hapart => ?_, disk_reopened_of_unknown hread hdriver⟩,
    disk_generate_task s name strict d⟩
  refine ⟨_, rfl, ?_⟩
  rcases (reopened_cases hread strict).outcome with
    ⟨hok, p, d', -, hdisk, -, hsaid⟩ | ⟨hok, e, d', -, hdisk, -, huntouched⟩ | ⟨e, -, -, hdisk⟩
  · rw [config_of_ok hread hdriver hok] at hsaid
    rwa [hdisk]
  · rw [hdisk]
    exact ⟨(huntouched hapart).answer.trans hread.1, s.readsOnly_readDocument name d'⟩
  · rwa [hdisk]

/-! ## Documents with and without a driver -/

/-- A store with the default settings. -/
def shelf : Store := ⟨⟨"shaders"⟩, default⟩

/-- A preset to put there. -/
def boxed : Config := ⟨"Foo", [.boxFold], .box⟩

/-- A disk on which it was published. -/
def driven : Disk := ((shelf.publish boxed true).run (Disk.empty ["scratch"])).disk

/-- A disk on which `Foo` has a document, but no driver. -/
def undriven : Disk := ((shelf.save boxed).run (Disk.empty ["scratch"])).disk

/-- A store in which no disk can tell whether a driver is there. -/
def unaskable : Store := ⟨⟨"shaders"⟩, { (default : Settings) with fragmentExt := "\x00" }⟩

/-- Where it was published, `Foo` is loaded and published again, and its document says the same.
Where the disk cannot tell whether its driver is there, the session stays a fresh one, and the disk
stays as it is. -/
theorem document_after_reopen_foo :
    ((shelf.readDocument "Foo").Yields driven boxed driven ∧ shelf.FragmentsApart driven "Foo" ∧
      (named shelf driven "Foo").1 = ⟨shelf, boxed⟩ ∧
      (reopened shelf driven "Foo" true).2.result.isOk = true ∧
      ∃ d', (reopened shelf driven "Foo" true).2.disk = d' ∧
        (shelf.readDocument "Foo").Yields d' boxed d') ∧
    (unaskable.readDocument "Foo").Yields undriven boxed undriven ∧
      (named unaskable undriven "Foo").1 = start unaskable ∧
      (reopened unaskable undriven "Foo" true).2.disk = undriven := by
  constructor
  · have hread : (shelf.readDocument "Foo").Yields driven boxed driven :=
      Store.readDocument_of_publish (c := boxed) ⟨rfl, rfl⟩
    have hdriver : driven.exists? (shelf.artifacts "Foo").driver = .ok true := rfl
    obtain ⟨hopened, -, hslash, hsaid, -⟩ := document_after_reopen hread true
    have hapart := hslash Settings.plain_default.slashFree
    have hresult : (reopened shelf driven "Foo" true).2.result.isOk = true := by
      rw [(reopened_of_ok (hopened.loaded hdriver).2 true).2.1, (hopened.loaded hdriver).1]
      rfl
    exact ⟨hread, hapart, (hopened.loaded hdriver).1, hresult,
      (hsaid (by simp [hdriver])).1 hapart⟩
  · have hread : (unaskable.readDocument "Foo").Yields undriven boxed undriven :=
      Store.readDocument_of_save (c := boxed) ⟨rfl, rfl⟩
    have hdriver : undriven.exists? (unaskable.artifacts "Foo").driver = .error .nulInPath := rfl
    obtain ⟨hopened, -⟩ := document_after_reopen hread true
    obtain ⟨hsession, hresult⟩ := hopened.failed _ hdriver
    refine ⟨hread, hsession, ?_⟩
    rw [reopened_of_error hresult true]
    exact hopened.disk

/-- A store in which the driver of `Foo` leads to its document, from a directory beside it. -/
def entangled : Store :=
  ⟨⟨"shaders"⟩, { (default : Settings) with fragmentExt := "x/../Foo_Conf.json" }⟩

/-- A disk on which that directory and the document are there. -/
def beside : Disk := undriven.put "Foo.x" ["shaders", "scratch"] .directory

/-- **Documents that are replaced.**  No driver marks `Foo` as existing, so the session does not
load its document, and publishes its own fresh configuration in its place.  Where the driver of
`Foo` leads to the document, it is loaded, and then its driver is written over it before the
publication fails. -/
theorem reopen_replaces_document :
    ((shelf.readDocument "Foo").Yields undriven boxed undriven ∧
      (named shelf undriven "Foo").2.result = .ok .kept ∧
      ∃ p d', (reopened shelf undriven "Foo" true).2.result = .ok p ∧
        (reopened shelf undriven "Foo" true).2.disk = d' ∧
        (shelf.readDocument "Foo").Yields d' ⟨"Foo", [], .mandelbrot⟩ d') ∧
    ((entangled.readDocument "Foo").Yields beside boxed beside ∧
      (named entangled beside "Foo").2.result = .ok .loaded ∧
      ∃ e d', (reopened entangled beside "Foo" true).2.result = .error e ∧
        (reopened entangled beside "Foo" true).2.disk = d' ∧
        ∃ reason, (entangled.readDocument "Foo").Fails d'
          (.malformedDocument "shaders/Foo_Conf.json" reason) d') := by
  constructor
  · have hread : (shelf.readDocument "Foo").Yields undriven boxed undriven :=
      Store.readDocument_of_save (c := boxed) ⟨rfl, rfl⟩
    have habsent : undriven.exists? (shelf.artifacts "Foo").driver = .ok false := rfl
    obtain ⟨hsession, hkept⟩ := (opened hread).kept habsent
    obtain ⟨-, hresult, hdisk⟩ := reopened_of_ok hkept true
    rw [hsession] at hresult hdisk
    obtain ⟨p, d', hpublish⟩ : ∃ p d',
        (shelf.publish ⟨"Foo", [], .mandelbrot⟩ true).Yields undriven p d' := ⟨_, _, rfl, rfl⟩
    exact ⟨hread, hkept, p, d', hresult.trans hpublish.1, hdisk.trans hpublish.2,
      Store.readDocument_of_publish hpublish⟩
  · have hread : (entangled.readDocument "Foo").Yields beside boxed beside :=
      Store.readDocument_yields_iff.mpr ⟨by decide, ⟨_, _, readText_of_readFile rfl,
        Document.decode_encode (Document.ofConfig boxed), rfl⟩, rfl⟩
    obtain ⟨fault, hfault⟩ := Fragment.decode_driver entangled.settings "Foo"
    have hdriver : beside.exists? (entangled.artifacts "Foo").driver = .ok true := rfl
    obtain ⟨hsession, hloaded⟩ := (opened hread).loaded hdriver
    obtain ⟨-, hresult, hdisk⟩ := reopened_of_ok hloaded true
    rw [hsession] at hresult hdisk
    obtain ⟨e, d', hpublish, hover⟩ : ∃ e d', (entangled.publish boxed true).Fails beside e d' ∧
        d'.readFile (entangled.documentPath "Foo")
          = .ok (Fragment.driverCode entangled.settings "Foo").text.toUTF8 :=
      ⟨_, _, ⟨rfl, rfl⟩, rfl⟩
    exact ⟨hread, hloaded, e, d', hresult.trans hpublish.1, hdisk.trans hpublish.2, _,
      Store.readDocument_fails_of_decode (by decide) (readText_of_readFile hover) hfault⟩

end Session

end FractalShader
