import FractalShader.Proofs.Cli.Completion
import FractalShader.Proofs.Session.Unusable
import FractalShader.Proofs.Store.Renewal

/-!
# Generating at the command line

The command loads what is stored under its name, replaces the chain and the distance
function where its options say so, and publishes the result.  What it replaces does not
depend on what was there, so on what it published itself it replaces nothing; and what
was published can be published again, which changes nothing.

* `adjusted_adjusted` — the options change nothing the second time;
* `completes_generate_iff` — when the command completes;
* `completes_generate_again` — on its own preset it completes and changes nothing;
* `generate_idempotent` — these, for command lines.
-/

namespace FractalShader

open FractalShader.Action FractalShader.Disk

namespace Cli

variable {s : Store} {d d' : Disk} {dir : Place} {name : String} {ops : List FoldKind}
  {clear strict : Bool} {sdf : Option SdfKind} {c : Config} {g : Generated}

/-! ## Options -/

theorem name_adjusted (c : Config) (ops : List FoldKind) (clear : Bool) (sdf : Option SdfKind) :
    (adjusted c ops clear sdf).name = c.name := by
  unfold adjusted
  cases sdf <;> cases clear <;> by_cases hops : ops = [] <;> simp [hops, Config.clear]

/-- What the options replace does not depend on what was there. -/
theorem adjusted_adjusted (c : Config) (ops : List FoldKind) (clear : Bool) (sdf : Option SdfKind) :
    adjusted (adjusted c ops clear sdf) ops clear sdf = adjusted c ops clear sdf := by
  unfold adjusted
  cases sdf <;> cases clear <;> by_cases hops : ops = [] <;> simp [hops, Config.clear]

/-- Without options nothing is replaced. -/
theorem adjusted_plain (c : Config) : adjusted c [] false none = c := rfl

/-! ## The command -/

/-- Say what was written. -/
def announcing (published : Store.Published) : Task Ending := do
  noticeWarnings published.generated.warnings
  notice ("wrote " ++ published.paths.driver.text)
  notice ("wrote " ++ published.paths.sdf.text)
  notice ("wrote " ++ published.paths.document.text)
  pure (.printed "")

theorem completes_announcing (published : Store.Published) (d : Disk) :
    ∃ ns, Completes (announcing published) d (.printed "") ns d :=
  ⟨_, (Completes.noticeWarnings _ d).bind ((Completes.notice _ d).bind ((Completes.notice _ d).bind
    ((Completes.notice _ d).bind (Completes.pure _ d))))⟩

theorem readsOnly_announcing (published : Store.Published) :
    (announcing published).run.ReadsOnly := by
  refine readsOnly_bind (readsOnly_noticeWarnings _) fun _ => ?_
  refine readsOnly_bind (readsOnly_notice _) fun _ => ?_
  refine readsOnly_bind (readsOnly_notice _) fun _ => ?_
  exact readsOnly_bind (readsOnly_notice _) fun _ => readsOnly_pure _

/-- Publish what a session holds, and say what was written. -/
def publishing (name : String) (session : Session) (strict : Bool) : Task Ending := do
  let published ← doing (some ("cannot generate '" ++ name ++ "'")) (session.generate strict)
  announcing published

theorem task_generate (s : Store) (name : String) (ops : List FoldKind) (clear : Bool)
    (sdf : Option SdfKind) (strict : Bool) :
    (Command.generate name ops clear sdf strict).task s = (do
      let (session, outcome) ← doing none ((Session.rename name).action (.start s))
      if outcome = .loaded then notice ("loaded existing preset '" ++ name ++ "'")
      publishing name { session with config := adjusted session.config ops clear sdf } strict) :=
  rfl

/-- It is said what was written once it is. -/
theorem completes_publishing_iff {session : Session} {ending : Ending} :
    (∃ ns, Completes (publishing name session strict) d ending ns d') ↔
      ending = .printed "" ∧ ∃ p, (session.generate strict).Yields d p d' := by
  unfold publishing
  constructor
  · rintro ⟨ns, h⟩
    obtain ⟨p, _, d₁, _, hgenerate, hsaid, -⟩ := completes_bind.mp h
    obtain ⟨hy, -⟩ := completes_doing.mp hgenerate
    obtain ⟨_, hannounced⟩ := completes_announcing p d₁
    obtain ⟨rfl, -, rfl⟩ := hsaid.unique hannounced
    exact ⟨rfl, p, hy⟩
  · rintro ⟨rfl, p, hy⟩
    obtain ⟨_, hannounced⟩ := completes_announcing p d'
    exact ⟨_, (Completes.doing hy _).bind hannounced⟩

theorem disk_publishing (name : String) (session : Session) (strict : Bool) (d : Disk) :
    ((publishing name session strict).run.run d).disk = ((session.generate strict).run d).disk := by
  rw [publishing, disk_bind_of_readsOnly readsOnly_announcing, disk_doing]

/-- What a session holds when it publishes a preset for the command. -/
def prepared (s : Store) (name : String) (ops : List FoldKind) (clear : Bool)
    (sdf : Option SdfKind) (found : Option Config) : Config :=
  adjusted ((Session.start s).renamed name found).1.config ops clear sdf

/-- **When the command completes.**  What is loaded is adjusted and published. -/
theorem completes_generate_iff {ending : Ending} :
    (∃ ns, Completes ((Command.generate name ops clear sdf strict).task s) d ending ns d') ↔
      ending = .printed "" ∧ PresetName.IsValid name ∧ ∃ found, (s.load name).Yields d found d ∧
        ∃ p, (s.publish (prepared s name ops clear sdf found) strict).Yields d p d' := by
  rw [task_generate]
  constructor
  · rintro ⟨ns, h⟩
    obtain ⟨r, _, d₁, _, hrename, hrest, -⟩ := completes_bind.mp h
    obtain ⟨hy, -⟩ := completes_doing.mp hrename
    obtain rfl := (Session.readsOnly_rename _ _).disk_eq hy
    obtain ⟨hv, found, hload, rfl⟩ := Session.rename_yields_iff.mp hy
    have hpublishing : ∃ ns, Completes
        (publishing name ⟨s, prepared s name ops clear sdf found⟩ strict) d₁ ending ns d' := by
      cases found with
      | some c =>
        obtain ⟨_, _, _, _, hnotice, hpublish, -⟩ := completes_bind.mp hrest
        obtain ⟨-, rfl⟩ := completes_notice.mp hnotice
        exact ⟨_, hpublish⟩
      | none => exact ⟨_, hrest⟩
    obtain ⟨hending, p, hp⟩ := completes_publishing_iff.mp hpublishing
    exact ⟨hending, hv, found, hload, p, hp⟩
  · rintro ⟨rfl, hv, found, hload, p, hp⟩
    have hy : ((Session.rename name).action (.start s)).Yields d
        ((Session.start s).renamed name found) d :=
      Session.rename_yields_iff.mpr ⟨hv, found, hload, rfl⟩
    obtain ⟨ns, hpublish⟩ : ∃ ns, Completes
        (publishing name ⟨s, prepared s name ops clear sdf found⟩ strict) d (.printed "") ns d' :=
      completes_publishing_iff.mpr ⟨rfl, p, hp⟩
    cases found with
    | some c =>
      exact ⟨_, (Completes.doing hy none).bind ((Completes.notice _ d).bind hpublish)⟩
    | none => exact ⟨_, (Completes.doing hy none).bind hpublish⟩

/-! ## Once, and again -/

/-- What the command publishes into a directory that is there can be published again, and its
options replace nothing in it. -/
theorem renewable_of_completes (hs : s.settings.SlashFree) (hd : d.directoryAt s.root = .ok dir)
    {ending : Ending} {ns : List String}
    (h : Completes ((Command.generate name ops clear sdf strict).task s) d ending ns d') :
    ∃ c g, c.name = name ∧ adjusted c ops clear sdf = c ∧ s.Renewable d' dir c g := by
  obtain ⟨-, hv, found, hload, p, hp⟩ := completes_generate_iff.mp ⟨ns, h⟩
  have hname := Session.name_renamed (s := Session.start s) hload
  exact ⟨_, p.generated, (name_adjusted _ ops clear sdf).trans hname,
    adjusted_adjusted _ ops clear sdf, Store.renewable_of_publish hs hd hp⟩

/-- **On a preset in which its options replace nothing the command changes nothing.** -/
theorem completes_generate_again (hs : s.settings.SlashFree) (h : s.Renewable d dir c g)
    (hname : c.name = name) (hsame : adjusted c ops clear sdf = c) (strict : Bool) :
    ∃ ns d', Completes ((Command.generate name ops clear sdf strict).task s) d (.printed "") ns d' ∧
      d.SameTree d' := by
  subst hname
  obtain ⟨p, d', hy, hsametree⟩ := h.renew hs (.publish strict)
  have hprepared : prepared s c.name ops clear sdf (some c) = c := hsame
  have hcompletes : ∃ ns, Completes ((Command.generate c.name ops clear sdf strict).task s) d
      (.printed "") ns d' :=
    completes_generate_iff.mpr ⟨rfl, h.stored.valid, some c, h.stored.load hs, p,
      by rw [hprepared]; exact hy⟩
  obtain ⟨ns, hcompletes⟩ := hcompletes
  exact ⟨ns, d', hcompletes, hsametree⟩

/-- So does a command line for it. -/
theorem answer_generate_again {i : Invocation} (hsettings : i.settings = none)
    (hcommand : i.command = .generate name ops clear sdf strict)
    (h : (i.store default).Renewable d dir c g) (hname : c.name = name)
    (hsame : adjusted c ops clear sdf = c) (filter : Option String) :
    (i.answer filter d).exit = 0 ∧ d.SameTree (i.answer filter d).disk := by
  obtain ⟨ns, d', hcompletes, hsametree⟩ := completes_generate_again
    Settings.plain_default.slashFree h hname hsame strict
  have htask : Completes i.task d (.printed "") ns d' := by
    refine completes_task_iff.mpr ⟨default, ?_, ?_⟩
    · rw [Invocation.Uses, hsettings]
    · rwa [hcommand]
  obtain ⟨hexit, -, hdisk⟩ := answer_of_completes htask filter
  exact ⟨hexit, hdisk ▸ hsametree⟩

/-- **Generating is idempotent at the command line.**  With the default settings and a directory
that is there, whatever stands in it: after a command line that generates a preset has ended well,
the same command line ends well again and leaves every place as it is, and so does every other for
the same name and directory that replaces neither the chain nor the distance function. -/
theorem generate_idempotent {args : List String} {i : Invocation} {filter : Option String}
    (hargs : Request.parse args = .run i) (hsettings : i.settings = none)
    (hcommand : i.command = .generate name ops clear sdf strict)
    (hdir : d.isDirectory ⟨i.dir⟩ = true) (hexit : (answer args filter d).exit = 0)
    (hd' : (answer args filter d).disk = d') :
    (∀ filter', (answer args filter' d').exit = 0 ∧ d'.SameTree (answer args filter' d').disk) ∧
      ∀ args' i' strict' filter', Request.parse args' = .run i' → i'.dir = i.dir →
        i'.settings = none → i'.command = .generate name [] false none strict' →
        (answer args' filter' d').exit = 0 ∧ d'.SameTree (answer args' filter' d').disk := by
  obtain ⟨dir, hd⟩ := directoryAt_of_isDirectory hdir
  rw [answer_of_parse hargs] at hexit hd'
  obtain ⟨ending, ns, hcompletes⟩ := exit_eq_zero_iff.mp hexit
  rw [hd'] at hcompletes
  obtain ⟨settings, huses, hcompletes⟩ := completes_task_iff.mp hcompletes
  rw [Invocation.Uses, hsettings] at huses
  subst huses
  rw [hcommand] at hcompletes
  obtain ⟨c, g, hname, hsame, hrenewable⟩ :=
    renewable_of_completes (s := i.store default) Settings.plain_default.slashFree hd hcompletes
  constructor
  · intro filter'
    rw [answer_of_parse hargs]
    exact answer_generate_again hsettings hcommand hrenewable hname hsame filter'
  · intro args' i' strict' filter' hargs' hdir' hsettings' hcommand'
    rw [answer_of_parse hargs']
    rw [← Invocation.store_congr hdir'] at hrenewable
    exact answer_generate_again hsettings' hcommand' hrenewable hname (adjusted_plain c) filter'

/-- The directory `Shaders` and nothing in it. -/
def emptyShaders : Disk := (Disk.empty ["scratch"]).put "Shaders" ["scratch"] .directory

theorem generate_idempotent_foo :
    let args := ["generate", "Foo", "--op", "box-fold", "--sdf", "box"]
    let d' := (answer args none emptyShaders).disk
    (answer args none emptyShaders).exit = 0 ∧
      (answer args none d').exit = 0 ∧ d'.SameTree (answer args none d').disk ∧
      (answer ["generate", "Foo"] none d').exit = 0 ∧
      d'.SameTree (answer ["generate", "Foo"] none d').disk := by
  intro args d'
  have hparse : Request.parse args =
      .run ⟨"Shaders", none, false, .generate "Foo" [.boxFold] false (some .box) false⟩ := by
    decide +kernel
  have hparse' : Request.parse ["generate", "Foo"] =
      .run ⟨"Shaders", none, false, .generate "Foo" [] false none false⟩ := by
    decide +kernel
  have hexit : (answer args none emptyShaders).exit = 0 := by decide +kernel
  obtain ⟨hagain, hplain⟩ :=
    generate_idempotent (d := emptyShaders) hparse rfl rfl (by decide +kernel) hexit rfl
  exact ⟨hexit, (hagain none).1, (hagain none).2, (hplain _ _ false none hparse' rfl rfl rfl).1,
    (hplain _ _ false none hparse' rfl rfl rfl).2⟩

end Cli

end FractalShader
