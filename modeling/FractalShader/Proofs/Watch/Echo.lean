import FractalShader.Proofs.Disk.Naming
import FractalShader.Proofs.Store.Overlap
import FractalShader.Proofs.Store.Steps
import FractalShader.Proofs.Watch.Response

/-!
# A watcher does not feed itself

To regenerate a preset is to write files, and every file that is written is reported to
the watcher in turn.  With some extensions a fragment has the file name of the document
of another preset, so such a report can ask for another regeneration.  It comes to
nothing, because a fragment cannot be read as a document: the regeneration fails when
it reads, before it touches the disk, and there is nothing more to report.

* `prepare`, `regenerate_eq`, `Writes` — which files a regeneration writes, whether it
  succeeds or fails after the first;
* `writesAs_of_yields` — when it succeeds, these are both fragments;
* `Undocumented` — a place where no document can be read; every step of a regeneration
  keeps it (`preserves_undocumented_regenerate`), and what a regeneration writes is such
  a place (`undocumented_of_writes`);
* `regenerate_fails_of_lacksDocument` — what a report about such a place leads to;
* `Loop.Step`, `Loop.Run` — the watcher at work on a queue of reports, to which the
  reports of its own files are added;
* `never_feeds_itself` — reports about its own files lead to nothing, and the watcher
  comes to an end.
-/

namespace FractalShader

open FractalShader.Action FractalShader.Disk

/-! ## Places without a document -/

/-- No file at the place `q` can be read as a document. -/
def Disk.Undocumented (d : Disk) (q : Place) : Prop :=
  ∀ content text, d.node? q = some (.file content) → String.fromUTF8? content = some text →
    ∃ fault, Document.decode text = .error fault

/-- A place stays without a document when what is new there is none. -/
theorem Disk.Undocumented.step {d d' : Disk} {q : Place} (h : d.Undocumented q)
    (hnew : ∀ content, d'.node? q = some (.file content) → d.node? q = some (.file content) ∨
      ∃ text : String, content = text.toUTF8 ∧ ∃ fault, Document.decode text = .error fault) :
    d'.Undocumented q := by
  intro content text hfile htext
  rcases hnew content hfile with hold | ⟨written, rfl, hfault⟩
  · exact h content text hold htext
  · rw [fromUTF8?_toUTF8] at htext
    rwa [Option.some.inj htext] at hfault

/-- The path `p` names a place where no document can be read. -/
def Disk.LacksDocument (d : Disk) (p : Path) : Prop := ∃ q, d.Names p q ∧ d.Undocumented q

theorem Disk.undocumented_of_file {d : Disk} {q : Place} {text : String}
    (hfile : d.node? q = some (.file text.toUTF8))
    (h : ∃ fault, Document.decode text = .error fault) : d.Undocumented q := by
  intro content text' hcontent htext
  rw [hfile] at hcontent
  cases hcontent
  rw [fromUTF8?_toUTF8] at htext
  rwa [← Option.some.inj htext]

namespace Store

variable {s : Store} {d d' d₀ : Disk} {q : Place} {p : Path} {name text : String} {strict : Bool}

theorem preserves_undocumented_ensureRoot (s : Store) (q : Place) :
    s.ensureRoot.Preserves (·.Undocumented q) := by
  intro d h
  apply h.step
  intro content hfile
  exact .inl (file_of_ensureRoot hfile)

theorem preserves_undocumented_removeIfPresent (p : Path) (q : Place) :
    (removeIfPresent p).Preserves (·.Undocumented q) := by
  intro d h
  apply h.step
  intro content hfile
  exact .inl (file_of_removeIfPresent hfile)

/-- Texts that are no documents may be written anywhere. -/
theorem preserves_undocumented_writeText (h : ∃ fault, Document.decode text = .error fault)
    (p : Path) (q : Place) : (writeText p text).Preserves (·.Undocumented q) := by
  intro d hd
  apply hd.step
  intro content hfile
  rcases file_of_writeText hfile with hold | ⟨rfl, -⟩
  · exact .inl hold
  · exact .inr ⟨text, rfl, h⟩

/-- A regeneration puts no document anywhere. -/
theorem preserves_undocumented_regenerate (s : Store) (name : String) (strict : Bool)
    (q : Place) : (s.regenerate name strict).Preserves (·.Undocumented q) := by
  apply preserves_regenerate
  intro _ c g hg
  obtain ⟨hdriver, hsdf⟩ := Fragment.generate_undecodable hg
  exact
    { root := s.preserves_undocumented_ensureRoot q
      removeDriver := preserves_undocumented_removeIfPresent _ q
      removeSdf := preserves_undocumented_removeIfPresent _ q
      writeDriver := preserves_undocumented_writeText hdriver _ q
      writeSdf := preserves_undocumented_writeText hsdf _ q }

/-- A regeneration loses no directory. -/
theorem preserves_keeps_regenerate (s : Store) (name : String) (strict : Bool) (d₀ : Disk) :
    (s.regenerate name strict).Preserves d₀.Keeps := by
  have hremove : ∀ p, (removeIfPresent p).Preserves d₀.Keeps := by
    intro p d hd
    rcases disk_removeIfPresent_cases p d with heq | ⟨_, _, -, hp⟩
    · rwa [heq]
    · exact hd.trans hp.keeps
  have hwrite : ∀ p text, (writeText p text).Preserves d₀.Keeps := by
    intro p text d hd
    rcases disk_writeText_cases p text d with heq | ⟨_, _, -, hp⟩
    · rwa [heq]
    · exact hd.trans hp.keeps
  apply preserves_regenerate
  intro _ c g _
  refine ⟨?_, hremove _, hremove _, hwrite _ _, hwrite _ _⟩
  intro d hd
  exact hd.trans (s.made_rooted d).keeps

/-! ## What a regeneration writes -/

/-- A regeneration up to its first writing: it makes its checks and the directory of the store, and
it removes the old fragments. -/
def prepare (s : Store) (name : String) (strict : Bool) : Action Published := do
  let c ← s.readDocument name
  let generated ← s.generate c strict
  let paths ← of (s.paths name)
  s.checkCollision name
  s.ensureRoot
  let _ ← removeIfPresent paths.driver
  let _ ← removeIfPresent paths.sdf
  pure ⟨paths, generated⟩

/-- After it has prepared, a regeneration writes the driver, then the distance fragment, and
reports. -/
theorem regenerate_eq (s : Store) (name : String) (strict : Bool) :
    s.regenerate name strict = s.prepare name strict >>= fun p =>
      writeText p.paths.driver p.generated.driver >>= fun _ =>
        writeText p.paths.sdf p.generated.sdf >>= fun _ =>
          emit (.wroteFragments name p.paths.driver.text p.paths.sdf.text) >>= fun _ =>
            emit (.regenerated name p.generated.warnings.length) >>= fun _ => pure p := by
  simp only [regenerate, prepare, writeFragments, bind_assoc, pure_bind]

theorem prepare_yields {p : Published} (h : (s.prepare name strict).Yields d p d') :
    p.paths = s.artifacts name ∧ ∃ c, (s.readDocument name).Yields d c d ∧
      Fragment.generate c s.settings strict = .ok p.generated := by
  rw [prepare, yields_bind] at h
  obtain ⟨c, d₀, hread, h⟩ := h
  obtain rfl := (s.readsOnly_readDocument name).disk_eq hread
  rw [yields_bind] at h
  obtain ⟨g, d₁, hgenerate, h⟩ := h
  simp only [yields_bind, yields_pure, yields_of, paths_eq_ok_iff] at h
  obtain ⟨_, _, ⟨⟨-, rfl⟩, -⟩, _, _, -, _, _, -, _, _, -, _, _, -, rfl, -⟩ := h
  exact ⟨rfl, c, hread, (generate_yields hgenerate).1⟩

/-- The places of the files that the regeneration of `name` writes on the disk `d`: its driver, and
if that could be written its distance fragment, as far as the disk lets it. -/
inductive Writes (s : Store) (strict : Bool) (name : String) (d : Disk) : Place → Prop where
  | driver {p : Published} {d₁ d₂ : Disk} {dir : Place} {file : String}
      (prepared : (s.prepare name strict).Yields d p d₁)
      (place : d₁.locate p.paths.driver = .ok (.entry dir file false))
      (written : (writeText p.paths.driver p.generated.driver).Yields d₁ () d₂) :
      Writes s strict name d (file :: dir)
  | sdf {p : Published} {d₁ d₂ d₃ : Disk} {dir : Place} {file : String}
      (prepared : (s.prepare name strict).Yields d p d₁)
      (before : (writeText p.paths.driver p.generated.driver).Yields d₁ () d₂)
      (place : d₂.locate p.paths.sdf = .ok (.entry dir file false))
      (written : (writeText p.paths.sdf p.generated.sdf).Yields d₂ () d₃) :
      Writes s strict name d (file :: dir)

/-- What was just written is no document. -/
theorem undocumented_of_writeText {dir : Place} {file : String} {u : Unit}
    (h : ∃ fault, Document.decode text = .error fault)
    (hl : d.locate p = .ok (.entry dir file false)) (hw : (writeText p text).Yields d u d') :
    d'.Undocumented (file :: dir) := by
  obtain ⟨dir', file', hl', hp⟩ := writeText_yields_at hw
  obtain ⟨rfl, rfl, -⟩ := Spot.entry.inj (Except.ok.inj (hl'.symm.trans hl))
  exact undocumented_of_file (hp.entry_of_written List.lookup_cons_self) h

/-- When a regeneration has ended, no file that it wrote can be read as a document. -/
theorem undocumented_of_writes (h : s.Writes strict name d q) :
    ((s.regenerate name strict).run d).disk.Undocumented q := by
  rw [regenerate_eq]
  cases h with
  | @driver p d₁ d₂ dir file prepared place written =>
    obtain ⟨-, c, -, hg⟩ := prepare_yields prepared
    obtain ⟨hdriver, hsdf⟩ := Fragment.generate_undecodable hg
    rw [prepared.disk_bind, written.disk_bind]
    refine Preserves.bind (P := (·.Undocumented (file :: dir)))
      (preserves_undocumented_writeText hsdf _ _) ?_ d₂
      (undocumented_of_writeText hdriver place written)
    intro _ _ _ _
    exact ((readsOnly_emit _).bind fun _ =>
      (readsOnly_emit _).bind fun _ => readsOnly_pure _).preserves
  | sdf prepared before place written =>
    obtain ⟨-, c, -, hg⟩ := prepare_yields prepared
    obtain ⟨-, hsdf⟩ := Fragment.generate_undecodable hg
    rw [prepared.disk_bind, before.disk_bind, written.disk_bind]
    exact undocumented_of_writeText hsdf place written

/-- The path `p` names a file that the regeneration of `name` writes on the disk `d`. -/
def WritesAs (s : Store) (strict : Bool) (name : String) (d : Disk) (p : Path) : Prop :=
  ∃ q, s.Writes strict name d q ∧ ((s.regenerate name strict).run d).disk.Names p q

/-- A regeneration that succeeds has written both fragments, each under its own path. -/
theorem writesAs_of_yields {published : Published}
    (h : (s.regenerate name strict).Yields d published d') :
    s.WritesAs strict name d (s.artifacts name).driver ∧
      s.WritesAs strict name d (s.artifacts name).sdf := by
  have hend := h.2
  simp only [regenerate_eq, yields_bind, yields_emit, yields_pure] at h
  obtain ⟨p, d₁, hprepared, _, d₂, hdriver, _, d₃, hsdf, _, _, rfl, _, _, rfl, -, rfl⟩ := h
  obtain ⟨dir, file, hl, hp⟩ := writeText_yields_at hdriver
  obtain ⟨dir', file', hl', hp'⟩ := writeText_yields_at hsdf
  have hpaths := (prepare_yields hprepared).1
  constructor
  · refine ⟨_, .driver hprepared hl hdriver, ?_⟩
    rw [hend, ← hpaths]
    exact (names_of_locate hl).keeps (hp.keeps.trans hp'.keeps)
  · refine ⟨_, .sdf hprepared hdriver hl' hsdf, ?_⟩
    rw [hend, ← hpaths]
    exact (names_of_locate hl').keeps hp'.keeps

/-! ## Reports about such places -/

theorem preserves_lacksDocument_regenerate (s : Store) (name : String) (strict : Bool) (p : Path) :
    (s.regenerate name strict).Preserves (·.LacksDocument p) := by
  rintro d ⟨q, hp, hq⟩
  have hkeeps := s.preserves_keeps_regenerate name strict d d (Keeps.refl d)
  exact ⟨q, hp.keeps hkeeps, s.preserves_undocumented_regenerate name strict q d hq⟩

theorem lacksDocument_of_writesAs (h : s.WritesAs strict name d p) :
    ((s.regenerate name strict).run d).disk.LacksDocument p := by
  obtain ⟨q, hwrites, hp⟩ := h
  exact ⟨q, hp, undocumented_of_writes hwrites⟩

/-- Where a path that is taken for the document of a preset names a place without a document, the
regeneration of that preset fails when it reads: it writes nothing, and the disk stays as it is. -/
theorem regenerate_fails_of_lacksDocument (hname : s.nameForDocument p = some name)
    (hp : d.LacksDocument p) (strict : Bool) :
    ∃ e, (s.regenerate name strict).Fails d e d ∧ ∀ q, ¬ s.Writes strict name d q := by
  obtain ⟨-, hcomponents⟩ := nameForDocument_eq_some hname
  obtain ⟨q, hp, hq⟩ := hp
  have hread : ∀ c d', ¬ (s.readDocument name).Yields d c d' := by
    intro c d' hy
    obtain ⟨-, ⟨text, document, htext, hdecode, -⟩, -⟩ := readDocument_yields_iff.mp hy
    obtain ⟨content, hcontent, hutf8⟩ := readText_eq_ok_iff.mp htext
    obtain ⟨dir, file, hl, -, hfile⟩ := readFile_eq_ok_iff.mp hcontent
    obtain rfl := hp.unique (names_of_locate hl) hcomponents
    obtain ⟨fault, hfault⟩ := hq content text hfile hutf8
    rw [hdecode] at hfault
    exact absurd hfault (by simp)
  rcases (s.readDocument name).yields_or_fails d with ⟨c, hy⟩ | ⟨e, hfails⟩
  · exact absurd hy (hread c _)
  · rw [s.readsOnly_readDocument name d] at hfails
    refine ⟨e, fails_bind.mpr (.inl hfails), ?_⟩
    intro q' hwrites
    cases hwrites with
    | driver prepared place written =>
      obtain ⟨-, c, hy, -⟩ := prepare_yields prepared
      exact hread c d hy
    | sdf prepared before place written =>
      obtain ⟨-, c, hy, -⟩ := prepare_yields prepared
      exact hread c d hy

end Store

namespace Watch

variable {s : Store} {strict : Bool} {d d' : Disk} {c : Change} {name : String}

/-! ## The watcher at work -/

/-- A watcher at work: the presets that the last report is about and that are still to be
regenerated, the reports that wait, and the disk. -/
structure Loop where
  names : List String
  queue : List Change
  disk : Disk

/-- A report about nothing but files under some of the given paths. -/
def Change.About (paths : Path → Prop) (c : Change) : Prop :=
  c.paths ≠ [] ∧ ∀ p ∈ c.paths, paths p

/-- One step of the watcher, with the paths of the files that it wrote: it takes the next report,
or it regenerates the next preset.  Then it is sent any reports about the files that it wrote, and
nobody else writes. -/
inductive Loop.Step (s : Store) (strict : Bool) : Loop → (Path → Prop) → Loop → Prop where
  | take {c : Change} {queue : List Change} {d : Disk} :
      Step s strict ⟨[], c :: queue, d⟩ (fun _ => False) ⟨affected s c, queue, d⟩
  | regenerate {name : String} {names : List String} {queue reports : List Change} {d d' : Disk}
      (disk : d' = ((Watch.regenerate s strict name).run d).disk)
      (about : ∀ c ∈ reports, c.About (s.WritesAs strict name d)) :
      Step s strict ⟨name :: names, queue, d⟩ (s.WritesAs strict name d)
        ⟨names, queue ++ reports, d'⟩

/-- What steps lead to, with the paths of all files that the watcher has written on the way. -/
inductive Loop.Run (s : Store) (strict : Bool) (start : Loop) : (Path → Prop) → Loop → Prop where
  | start : Run s strict start (fun _ => False) start
  | step {own new : Path → Prop} {a b : Loop} : Run s strict start own a →
      Loop.Step s strict a new b → Run s strict start (fun p => own p ∨ new p) b

/-- No file that the watcher has written can be read as a document, at no time later. -/
theorem Loop.Run.lacksDocument {start a : Loop} {own : Path → Prop}
    (h : Loop.Run s strict start own a) : ∀ p, own p → a.disk.LacksDocument p := by
  induction h with
  | start => exact fun p hp => hp.elim
  | step hrun hstep ih =>
    intro p hp
    cases hstep with
    | take => exact hp.elim (ih p) False.elim
    | regenerate disk about =>
      rw [disk, (run_regenerate s strict _ _).2]
      rcases hp with hold | hnew
      · exact s.preserves_lacksDocument_regenerate _ strict p _ (ih p hold)
      · exact s.lacksDocument_of_writesAs hnew

/-! ## Coming to an end -/

/-- The document of the preset `name` cannot be read under one of its paths. -/
def Dead (s : Store) (d : Disk) (name : String) : Prop :=
  ∃ p, s.nameForDocument p = some name ∧ d.LacksDocument p

/-- A report that leads to nothing. -/
def Echo (s : Store) (d : Disk) (c : Change) : Prop := ∀ name ∈ affected s c, Dead s d name

theorem Dead.regenerate (h : Dead s d name) (strict : Bool) :
    ((Watch.regenerate s strict name).run d).disk = d ∧ ∀ p, ¬ s.WritesAs strict name d p := by
  obtain ⟨p, hname, hp⟩ := h
  obtain ⟨e, hfails, hwrites⟩ := Store.regenerate_fails_of_lacksDocument hname hp strict
  rw [(run_regenerate s strict name d).2]
  exact ⟨hfails.2, fun _ hc => hwrites _ hc.choose_spec.1⟩

theorem Echo.keeps (h : Echo s d c) (other : String) :
    Echo s ((Watch.regenerate s strict other).run d).disk c := by
  intro name hname
  obtain ⟨p, hp, hlacks⟩ := h name hname
  rw [(run_regenerate s strict other d).2]
  exact ⟨p, hp, s.preserves_lacksDocument_regenerate other strict p d hlacks⟩

/-- A report about files that a regeneration wrote leads to nothing. -/
theorem Change.About.echo (h : c.About (s.WritesAs strict name d)) :
    Echo s ((Watch.regenerate s strict name).run d).disk c := by
  intro m hm
  obtain ⟨-, p, hp, hname⟩ := mem_affected.mp hm
  rw [(run_regenerate s strict name d).2]
  exact ⟨p, hname, s.lacksDocument_of_writesAs (h.2 p hp)⟩

/-- Where nothing was written there is nothing to report. -/
theorem eq_nil_of_about {reports : List Change} {paths : Path → Prop}
    (h : ∀ c ∈ reports, c.About paths) (hnone : ∀ p, ¬ paths p) : reports = [] := by
  apply List.eq_nil_iff_forall_not_mem.mpr
  intro c hc
  obtain ⟨hne, hpaths⟩ := h c hc
  obtain ⟨p, hp⟩ := List.exists_mem_of_ne_nil _ hne
  exact hnone p (hpaths p hp)

/-- Presets that are dead are passed over one after another, and nothing is reported. -/
theorem acc_of_dead {queue : List Change} {names : List String}
    (hnames : ∀ name ∈ names, Dead s d name)
    (hrest : Acc (fun b a => ∃ new, Loop.Step s strict a new b) ⟨[], queue, d⟩) :
    Acc (fun b a => ∃ new, Loop.Step s strict a new b) ⟨names, queue, d⟩ := by
  induction names with
  | nil => exact hrest
  | cons name names ih =>
    constructor
    rintro b ⟨new, hstep⟩
    cases hstep with
    | regenerate disk about =>
      obtain ⟨hdisk, hwrites⟩ := (hnames name List.mem_cons_self).regenerate strict
      rw [disk, hdisk, eq_nil_of_about about hwrites, List.append_nil]
      exact ih fun m hm => hnames m (List.mem_cons_of_mem _ hm)

/-- When only reports that lead to nothing are left, they are taken one after another. -/
theorem acc_of_echo {queue : List Change} (hqueue : ∀ c ∈ queue, Echo s d c) :
    Acc (fun b a => ∃ new, Loop.Step s strict a new b) ⟨[], queue, d⟩ := by
  induction queue with
  | nil =>
    constructor
    rintro b ⟨new, hstep⟩
    cases hstep
  | cons c queue ih =>
    constructor
    rintro b ⟨new, hstep⟩
    cases hstep with
    | take =>
      apply acc_of_dead (hqueue c List.mem_cons_self)
      exact ih fun c' hc' => hqueue c' (List.mem_cons_of_mem _ hc')

/-- While presets are regenerated for one report, only reports that lead to nothing are added to
those that wait. -/
theorem acc_of_names {pending : List Change}
    (hrest : ∀ echoes d, (∀ c ∈ echoes, Echo s d c) →
      Acc (fun b a => ∃ new, Loop.Step s strict a new b) ⟨[], pending ++ echoes, d⟩)
    (names : List String) (echoes : List Change) (d : Disk) (hechoes : ∀ c ∈ echoes, Echo s d c) :
    Acc (fun b a => ∃ new, Loop.Step s strict a new b) ⟨names, pending ++ echoes, d⟩ := by
  induction names generalizing echoes d with
  | nil => exact hrest echoes d hechoes
  | cons name names ih =>
    constructor
    rintro b ⟨new, hstep⟩
    cases hstep with
    | regenerate disk about =>
      subst disk
      rw [List.append_assoc]
      apply ih
      intro c hc
      rcases List.mem_append.mp hc with hold | hnew
      · exact (hechoes c hold).keeps name
      · exact (about c hnew).echo

/-- Whatever reports are pending, after them there are only such as lead to nothing. -/
theorem acc_of_pending (pending echoes : List Change) (d : Disk)
    (hechoes : ∀ c ∈ echoes, Echo s d c) :
    Acc (fun b a => ∃ new, Loop.Step s strict a new b) ⟨[], pending ++ echoes, d⟩ := by
  induction pending generalizing echoes d with
  | nil => exact acc_of_echo hechoes
  | cons c pending ih =>
    constructor
    rintro b ⟨new, hstep⟩
    cases hstep with
    | take => exact acc_of_names ih _ echoes d hechoes

/-- The watcher stops only when there is nothing left to do. -/
theorem Loop.stuck_iff (a : Loop) :
    (¬ ∃ new b, Loop.Step s strict a new b) ↔ a.names = [] ∧ a.queue = [] := by
  obtain ⟨names, queue, d⟩ := a
  constructor
  · intro h
    cases names with
    | cons name names =>
      have hnone : ∀ c ∈ [], Change.About (s.WritesAs strict name d) c := by simp
      exact absurd ⟨_, _, Loop.Step.regenerate rfl hnone⟩ h
    | nil =>
      cases queue with
      | cons c queue => exact absurd ⟨_, _, Loop.Step.take⟩ h
      | nil => exact ⟨rfl, rfl⟩
  · rintro ⟨rfl, rfl⟩ ⟨new, b, hstep⟩
    cases hstep

/-- **A watcher does not feed itself**, whatever the extensions are and whatever the disk holds.
Let it work on any queue of reports, and add any reports about the files that it writes, also where
a regeneration fails after it wrote one.  Whenever the path of a file that it has written is taken
for the document of some preset, the regeneration of that preset fails, writes no file and leaves
the disk as it is.  So there is no endless run: the watcher stops, and only when every report has
been answered. -/
theorem never_feeds_itself (s : Store) (strict : Bool) (queue : List Change) (d₀ : Disk) :
    (∀ own a, Loop.Run s strict ⟨[], queue, d₀⟩ own a →
      ∀ p name, own p → s.nameForDocument p = some name →
        ∃ e, (s.regenerate name strict).Fails a.disk e a.disk ∧
          ∀ q, ¬ s.Writes strict name a.disk q) ∧
      Acc (fun b a => ∃ new, Loop.Step s strict a new b) ⟨[], queue, d₀⟩ ∧
      ∀ a, (¬ ∃ new b, Loop.Step s strict a new b) ↔ a.names = [] ∧ a.queue = [] := by
  refine ⟨?_, ?_, Loop.stuck_iff⟩
  · intro own a hrun p name hp hname
    exact Store.regenerate_fails_of_lacksDocument hname (hrun.lacksDocument p hp) strict
  · have hnone : ∀ c ∈ [], Echo s d₀ c := by simp
    have hacc : Acc (fun b a => ∃ new, Loop.Step s strict a new b) ⟨[], queue ++ [], d₀⟩ :=
      acc_of_pending queue [] d₀ hnone
    rwa [List.append_nil] at hacc

/-! ## An echo -/

/-- A disk on which only the document of `Foo_Conf` stands, in a store whose fragments have the
extension of documents. -/
def fooConfWritten : Disk :=
  ((Disk.empty ["scratch"]).put "shaders" ["scratch"] .directory).put "Foo_Conf_Conf.json"
    ["shaders", "scratch"] (.file (Document.encode ⟨[.boxFold], .box⟩).toUTF8)

/-- The report that a file of that store was modified. -/
def modified (file : String) : Change := ⟨.modify, [⟨"shaders/" ++ file⟩]⟩

theorem affected_modified {file name : String}
    (h : Store.sameExtension.nameForDocument ⟨"shaders/" ++ file⟩ = some name) :
    affected Store.sameExtension (modified file) = [name] :=
  affected_of_document (.inr rfl) h

/-- The driver of `Foo_Conf` is written where the document of `Foo` would be. -/
theorem writesAs_fooConf :
    Store.sameExtension.WritesAs true "Foo_Conf" fooConfWritten ⟨"shaders/Foo_Conf.json"⟩ := by
  have hread : (Store.sameExtension.readDocument "Foo_Conf").Yields fooConfWritten
      ⟨"Foo_Conf", [.boxFold], .box⟩ fooConfWritten :=
    Store.readDocument_yields_iff.mpr ⟨by decide,
      ⟨_, _, readText_of_readFile rfl, Document.decode_encode _, rfl⟩, rfl⟩
  have hprepared : (Store.sameExtension.prepare "Foo_Conf" true).Yields fooConfWritten _ _ :=
    yields_bind.mpr ⟨_, _, hread, rfl, rfl⟩
  have hnames : fooConfWritten.Names ⟨"shaders/Foo_Conf.json"⟩
      ["Foo_Conf.json", "shaders", "scratch"] :=
    ⟨["shaders"], "Foo_Conf.json", ["shaders", "scratch"], by decide, by decide, rfl, rfl⟩
  refine ⟨_, .driver hprepared rfl ⟨rfl, rfl⟩, hnames.keeps ?_⟩
  exact Store.preserves_keeps_regenerate _ "Foo_Conf" true _ _ (Keeps.refl fooConfWritten)

/-- The document of `Foo_Conf` is reported and regenerated, the driver that was written is reported,
and `Foo` is regenerated, which fails. -/
theorem never_feeds_itself_foo :
    ∃ own a, Loop.Run Store.sameExtension true
        ⟨[], [modified "Foo_Conf_Conf.json"], fooConfWritten⟩ own a ∧
      own ⟨"shaders/Foo_Conf.json"⟩ ∧ a.names = ["Foo"] ∧
      ∃ e, (Store.sameExtension.regenerate "Foo" true).Fails a.disk e a.disk := by
  have hstart : Loop.Run Store.sameExtension true
      ⟨[], [modified "Foo_Conf_Conf.json"], fooConfWritten⟩ _ _ := .start
  have htaken := hstart.step .take
  rw [affected_modified (show _ = some "Foo_Conf" by decide)] at htaken
  have habout : ∀ c ∈ [modified "Foo_Conf.json"],
      c.About (Store.sameExtension.WritesAs true "Foo_Conf" fooConfWritten) := by
    intro c hc
    obtain rfl := List.mem_singleton.mp hc
    refine ⟨by decide, ?_⟩
    intro p hp
    obtain rfl := List.mem_singleton.mp hp
    exact writesAs_fooConf
  have hreported := (htaken.step (.regenerate rfl habout)).step .take
  rw [affected_modified (show _ = some "Foo" by decide)] at hreported
  refine ⟨_, _, hreported, .inl (.inr writesAs_fooConf), rfl, ?_⟩
  obtain ⟨e, hfails, -⟩ := (never_feeds_itself _ true _ fooConfWritten).1 _ _ hreported
    ⟨"shaders/Foo_Conf.json"⟩ "Foo" (.inl (.inr writesAs_fooConf)) (by decide)
  exact ⟨e, hfails⟩

end Watch

end FractalShader
