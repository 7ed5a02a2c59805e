import FractalShader.Proofs.Cli.Completion
import FractalShader.Proofs.Store.Repetition

/-!
# Showing what would be generated

Printing the code of a preset and regenerating it read the same document and generate
from it; one shows the result, the other writes it.  A regeneration leaves the document
as it is, so it does not matter which of the two comes first.

* `silent_regenerate` — the store shows nothing at the terminal, the command does;
* `completes_print`, `completes_regenerate` — what the two commands show and print;
* `completes_print_of_regenerable` — what would be written can be printed;
* `show_agrees_with_regen` — the two commands agree.
-/

namespace FractalShader

open FractalShader.Action FractalShader.Disk

/-! ## What the store shows -/

namespace Store

variable {s : Store}

theorem silent_malformed {α : Type} (p : Path) (reason : String) :
    (malformed p reason : Action α).Silent :=
  (silent_emit rfl).bind fun _ => silent_refuse _

theorem silent_readDocument (s : Store) (name : String) : (s.readDocument name).Silent := by
  refine (silent_of _).bind fun paths => (silent_look _).bind fun text => ?_
  split
  · exact silent_malformed _ _
  · exact silent_refuse _
  · split
    · exact silent_malformed _ _
    · exact (silent_emit rfl).bind fun _ => silent_pure _

theorem silent_generate (s : Store) (c : Config) (strict : Bool) : (s.generate c strict).Silent := by
  refine (silent_emit rfl).bind fun _ => (silent_of _).bind fun g => ?_
  refine (silent_emitAll fun e he => ?_).bind fun _ => silent_pure _
  obtain ⟨w, -, rfl⟩ := List.mem_map.mp he
  rfl

theorem silent_refuseBeside (s : Store) (name : String) (ps : List (String × NameFault)) :
    (s.refuseBeside name ps).Silent := by
  induction ps with
  | nil => exact silent_pure ()
  | cons p ps ih =>
    refine ((silent_of _).bind fun _ => silent_ask _ _ : (s.hasDocument p.1).Silent).bind
      fun present => ?_
    cases present
    · exact ih
    · exact (silent_refuse _).bind fun _ => ih

theorem silent_writeFragments (s : Store) (name driver sdf : String) :
    (s.writeFragments name driver sdf).Silent := by
  refine (silent_of _).bind fun paths => ?_
  refine Silent.bind (checkCollision_eq s name ▸ s.silent_refuseBeside name _) fun _ => ?_
  refine (silent_request _ _).bind fun _ => ?_
  refine (silent_request _ _).bind fun _ => (silent_request _ _).bind fun _ => ?_
  refine (silent_request _ _).bind fun _ => (silent_request _ _).bind fun _ => ?_
  exact (silent_emit rfl).bind fun _ => silent_pure _

theorem silent_regenerate (s : Store) (name : String) (strict : Bool) :
    (s.regenerate name strict).Silent := by
  refine (s.silent_readDocument name).bind fun c => (s.silent_generate c strict).bind fun g => ?_
  refine (s.silent_writeFragments name g.driver g.sdf).bind fun _ => ?_
  exact (silent_emit rfl).bind fun _ => silent_pure _

end Store

namespace Cli

variable {s : Store} {d d' : Disk} {dir : Place} {name : String} {strict sdfOnly driverOnly : Bool}
  {c : Config} {g : Generated} {i : Invocation} {settings : Settings}

/-! ## The two commands -/

/-- What is shown of the warnings. -/
def warningLines (g : Generated) : List String := g.warnings.map fun w => "warning: " ++ w.message

/-- What is printed of the code. -/
def printedCode (sdfOnly driverOnly : Bool) (g : Generated) : String :=
  (if sdfOnly then "" else g.driver) ++ (if sdfOnly || driverOnly then "" else "\n")
    ++ (if driverOnly then "" else g.sdf)

/-- Nobody asks for the one fragment only and for the other only. -/
theorem printedCode_eq (h : ¬ (sdfOnly ∧ driverOnly)) (g : Generated) :
    printedCode sdfOnly driverOnly g =
      if sdfOnly then g.sdf else if driverOnly then g.driver else g.driver ++ "\n" ++ g.sdf := by
  cases sdfOnly <;> cases driverOnly <;> simp_all [printedCode]

/-- The code of a preset that has a document is printed. -/
theorem completes_print (hread : (s.readDocument name).Yields d c d)
    (hg : Fragment.generate c s.settings false = .ok g) (sdfOnly driverOnly : Bool) :
    Completes ((Command.print name sdfOnly driverOnly).task s) d
      (.printed (printedCode sdfOnly driverOnly g)) (warningLines g) d := by
  have hall : Completes ((Command.print name sdfOnly driverOnly).task s) d
      (.printed (printedCode sdfOnly driverOnly g)) ([] ++ ([] ++ (warningLines g ++ []))) d :=
    (Completes.doing_silent (s.silent_readDocument name) hread none).bind
      ((Completes.doing_silent (s.silent_generate c false) (Store.generate_of_ok hg) none).bind
        ((Completes.noticeWarnings g.warnings d).bind (Completes.pure _ d)))
  simpa using hall

/-- It is said what was regenerated once it is. -/
theorem completes_regenerate {ending : Ending} {ns : List String}
    (h : Completes ((Command.regenerate name strict).task s) d ending ns d') :
    ∃ p, (s.regenerate name strict).Yields d p d' ∧ ns = warningLines p.generated ++
      ["regenerated " ++ p.paths.driver.text ++ " and " ++ p.paths.sdf.text] := by
  obtain ⟨p, _, d₁, _, hregenerate, hsaid, rfl⟩ := completes_bind.mp h
  obtain ⟨hy, rfl⟩ := (completes_doing_of_silent (s.silent_regenerate name strict)).mp hregenerate
  have hall : Completes (do
      noticeWarnings p.generated.warnings
      notice ("regenerated " ++ p.paths.driver.text ++ " and " ++ p.paths.sdf.text)
      pure (Ending.printed "")) d₁ (.printed "") (warningLines p.generated ++
        (["regenerated " ++ p.paths.driver.text ++ " and " ++ p.paths.sdf.text] ++ [])) d₁ :=
    (Completes.noticeWarnings _ d₁).bind ((Completes.notice _ d₁).bind (Completes.pure _ d₁))
  obtain ⟨rfl, rfl, rfl⟩ := hsaid.unique hall
  exact ⟨p, hy, by simp⟩

/-- **What would be regenerated can be printed**, whether or not it would be strictly. -/
theorem completes_print_of_regenerable (h : s.Regenerable strict d dir name g)
    (sdfOnly driverOnly : Bool) :
    Completes ((Command.print name sdfOnly driverOnly).task s) d
      (.printed (printedCode sdfOnly driverOnly g)) (warningLines g) d := by
  obtain ⟨c, hread, hg⟩ := h.generated
  exact completes_print hread (Fragment.generate_lenient_of_ok hg) sdfOnly driverOnly

/-! ## Command lines -/

theorem ofArguments_print {subcommand : String} {given : Given} {positionals : List String}
    (h : Command.ofArguments subcommand given positionals =
      some (.print name sdfOnly driverOnly)) : ¬ (sdfOnly ∧ driverOnly) := by
  unfold Command.ofArguments at h
  split at h
  · split at h <;> simp at h
  · split at h
    · simp at h
    · next hboth =>
      simp only [Option.some.injEq, Command.print.injEq] at h
      obtain ⟨-, rfl, rfl⟩ := h
      exact hboth
  all_goals simp at h

/-- What a command line says to do is what the arguments of its subcommand say. -/
theorem command_of_parse {args : List String} (h : Request.parse args = .run i) :
    ∃ subcommand given positionals,
      Command.ofArguments subcommand given positionals = some i.command := by
  unfold Request.parse at h
  split at h <;> try contradiction
  split at h
  · -- help is asked for, if anything
    repeat' split at h
    all_goals contradiction
  · split at h <;> try contradiction
    split at h <;> try contradiction
    split at h <;> try contradiction
    next hcommand =>
      obtain rfl := Request.run.inj h
      exact ⟨_, _, _, hcommand⟩

/-- A command line asks for one of the fragments only, or for both. -/
theorem print_of_parse {args : List String} (h : Request.parse args = .run i)
    (hcommand : i.command = .print name sdfOnly driverOnly) : ¬ (sdfOnly ∧ driverOnly) := by
  obtain ⟨subcommand, given, positionals, harguments⟩ := command_of_parse h
  exact ofArguments_print (harguments.trans (congrArg some hcommand))

/-! ## Settings -/

namespace Invocation.Uses

theorem unique {settings' : Settings} (h : i.Uses d settings) (h' : i.Uses d settings') :
    settings = settings' := by
  unfold Invocation.Uses at h h'
  cases hfile : i.settings with
  | none =>
    rw [hfile] at h h'
    exact h.trans h'.symm
  | some file =>
    rw [hfile] at h h'
    exact (Yields.unique h h').1

/-- A file of settings that is used is there. -/
theorem find (h : i.Uses d settings) {file : String} (hfile : i.settings = some file) :
    ∃ q content, d.find ⟨file⟩ = .ok (q, .file content) := by
  rw [Invocation.Uses, hfile] at h
  obtain ⟨⟨text, hread, -⟩, -⟩ := loadSettings_yields_iff.mp h
  obtain ⟨content, hcontent⟩ := readFile_of_readText hread
  obtain ⟨q, hq⟩ := readFile_eq_ok_iff_find.mp hcontent
  exact ⟨q, content, hq⟩

/-- The same settings are used as long as their file stays as it is. -/
theorem congr (h : i.Uses d settings)
    (hfind : ∀ file, i.settings = some file → d'.find ⟨file⟩ = d.find ⟨file⟩) :
    i.Uses d' settings := by
  unfold Invocation.Uses at h ⊢
  cases hfile : i.settings with
  | none => rwa [hfile] at h
  | some file =>
    rw [hfile] at h
    obtain ⟨⟨text, hread, hdecode⟩, -⟩ := loadSettings_yields_iff.mp h
    refine loadSettings_yields_iff.mpr ⟨⟨text, ?_, hdecode⟩, rfl⟩
    rwa [readText, readFile, hfind file hfile]

/-- A regeneration leaves the settings alone when their file is neither of the two fragments. -/
theorem after_regeneration (h : i.Uses d settings) (hs : settings.SlashFree)
    (hr : (i.store settings).Regenerable strict d dir name g)
    (hp : d.Patched dir [((i.store settings).sdfFile name, some g.sdf.toUTF8),
      ((i.store settings).driverFile name, some g.driver.toUTF8)] d')
    (hapart : ∀ file, i.settings = some file →
      ∀ path ∈ [((i.store settings).artifacts name).driver, ((i.store settings).artifacts name).sdf],
        d.find path ≠ d.find ⟨file⟩) : i.Uses d' settings := by
  refine h.congr fun file hfile => ?_
  obtain ⟨q, content, hfind⟩ := h.find hfile
  rw [hfind]
  exact hr.find_apart hs hp hfind (hapart file hfile)

end Invocation.Uses

/-! ## Both commands -/

/-- A command line that regenerates a preset and ends well could, did, and says so. -/
theorem answer_regenerate {filter : Option String} (hcommand : i.command = .regenerate name strict)
    (huses : i.Uses d settings) (hs : settings.SlashFree) (hexit : (i.answer filter d).exit = 0) :
    ∃ dir g, (i.store settings).Regenerable strict d dir name g ∧
      d.Patched dir [((i.store settings).sdfFile name, some g.sdf.toUTF8),
        ((i.store settings).driverFile name, some g.driver.toUTF8)] (i.answer filter d).disk ∧
      (i.answer (some "off") d).stderr = lines (warningLines g ++
        ["regenerated " ++ ((i.store settings).artifacts name).driver.text ++ " and "
          ++ ((i.store settings).artifacts name).sdf.text]) := by
  obtain ⟨ending, ns, hcompletes⟩ := exit_eq_zero_iff.mp hexit
  obtain ⟨settings', huses', hregenerates⟩ := completes_task_iff.mp hcompletes
  obtain rfl := huses'.unique huses
  rw [hcommand] at hregenerates
  obtain ⟨p, hy, rfl⟩ := completes_regenerate hregenerates
  obtain ⟨dir, g, rfl, hr, hp⟩ := Store.regenerable_of_yields hs hy
  exact ⟨dir, g, hr, hp, stderr_of_completes hcompletes⟩

/-- On a disk on which a preset can be regenerated, a command line that prints its code prints what
would be generated. -/
theorem answer_print (h : (i.store settings).Regenerable strict d dir name g)
    (huses : i.Uses d settings) (hcommand : i.command = .print name sdfOnly driverOnly)
    (filter : Option String) :
    (i.answer filter d).exit = 0 ∧
      (i.answer filter d).stdout = printedCode sdfOnly driverOnly g ∧
      (i.answer filter d).disk = d ∧
      (i.answer (some "off") d).stderr = lines (warningLines g) := by
  have htask : Completes i.task d (.printed (printedCode sdfOnly driverOnly g))
      (warningLines g) d := by
    refine completes_task_iff.mpr ⟨settings, huses, ?_⟩
    rw [hcommand]
    exact completes_print_of_regenerable h sdfOnly driverOnly
  obtain ⟨hexit, hstdout, hdisk⟩ := answer_of_completes htask filter
  exact ⟨hexit, hstdout, hdisk, stderr_of_completes htask⟩

/-- **Showing agrees with regenerating.**  Let a command line that regenerates a preset end well,
with settings whose extensions contain no slash and whose file, if they come from one, is neither of
the two fragments.  Then, before it and after it, each command line that shows the preset ends well
and changes nothing; it prints the driver and the distance fragment that the regeneration leaves,
with a newline between them, or the one of them that it asks for.  With logging off both show the
same warnings, and the one that regenerates says besides what it wrote. -/
theorem show_agrees_with_regen {args : List String} {filter : Option String}
    (hargs : Request.parse args = .run i) (hcommand : i.command = .regenerate name strict)
    (huses : i.Uses d settings) (hs : settings.SlashFree)
    (hapart : ∀ file, i.settings = some file →
      ∀ path ∈ [((i.store settings).artifacts name).driver, ((i.store settings).artifacts name).sdf],
        d.find path ≠ d.find ⟨file⟩)
    (hexit : (answer args filter d).exit = 0) (hd' : (answer args filter d).disk = d') :
    ∃ g : Generated,
      d'.readFile ((i.store settings).artifacts name).driver = .ok g.driver.toUTF8 ∧
      d'.readFile ((i.store settings).artifacts name).sdf = .ok g.sdf.toUTF8 ∧
      (answer args (some "off") d).stderr = lines (warningLines g ++
        ["regenerated " ++ ((i.store settings).artifacts name).driver.text ++ " and "
          ++ ((i.store settings).artifacts name).sdf.text]) ∧
      ∀ args' i' sdfOnly driverOnly filter', Request.parse args' = .run i' → i'.dir = i.dir →
        i'.settings = i.settings → i'.command = .print name sdfOnly driverOnly →
        ∀ e ∈ [d, d'], (answer args' filter' e).exit = 0 ∧
          (answer args' filter' e).stdout = (if sdfOnly then g.sdf else if driverOnly then g.driver
            else g.driver ++ "\n" ++ g.sdf) ∧
          (answer args' filter' e).disk = e ∧
          (answer args' (some "off") e).stderr = lines (warningLines g) := by
  rw [answer_of_parse hargs] at hexit hd' ⊢
  obtain ⟨dir, g, hr, hp, hstderr⟩ := answer_regenerate hcommand huses hs hexit
  rw [hd'] at hp
  have hafter := hr.upToDate hs hp
  have huses' := huses.after_regeneration hs hr hp hapart
  refine ⟨g, ?_, ?_, hstderr, ?_⟩
  · rw [readFile, hafter.find_driver hs]
  · rw [readFile, hafter.find_sdf hs]
  · intro args' i' sdfOnly driverOnly filter' hargs' hdir hsettings hcommand' e he
    have hshown : ∃ dir, (i'.store settings).Regenerable strict e dir name g ∧
        i'.Uses e settings := by
      rw [Invocation.Uses, Invocation.store_congr hdir, hsettings]
      simp only [List.mem_cons, List.not_mem_nil, or_false] at he
      rcases he with rfl | rfl
      · exact ⟨dir, hr, huses⟩
      · exact ⟨dir, hafter.regenerable, huses'⟩
    obtain ⟨dir', hregenerable, huses''⟩ := hshown
    rw [answer_of_parse hargs', answer_of_parse hargs',
      ← printedCode_eq (print_of_parse hargs' hcommand')]
    exact answer_print hregenerable huses'' hcommand' filter'

/-- A preset with a document that has an entry of an unknown kind, no fragments, and a file of
settings with another extension for them. -/
def describedFoo : Disk :=
  (((Disk.empty ["scratch"]).put "Shaders" ["scratch"] .directory).put "Foo_Conf.json"
    ["Shaders", "scratch"] (.file (Document.encode ⟨[.boxFold, .unknown], .box⟩).toUTF8)).put
      "settings.json" ["scratch"] (.file "\x7b\"fragment_ext\":\"glsl\"\x7d".toUTF8)

theorem show_agrees_with_regen_foo :
    ∃ g : Generated,
      let both := ["--settings", "settings.json", "show", "Foo"]
      let one := ["--settings", "settings.json", "show", "Foo", "--driver-only"]
      let d' := (answer ["--settings", "settings.json", "regen", "Foo"] none describedFoo).disk
      d'.readFile ⟨"Shaders/Foo.glsl"⟩ = .ok g.driver.toUTF8 ∧
        d'.readFile ⟨"Shaders/FooSDF.glsl"⟩ = .ok g.sdf.toUTF8 ∧
        (answer both none describedFoo).stdout = g.driver ++ "\n" ++ g.sdf ∧
        (answer both none describedFoo).disk = describedFoo ∧
        (answer one none d').stdout = g.driver ∧
        (answer both (some "off") describedFoo).stderr = (answer one (some "off") d').stderr := by
  have huses : (⟨"Shaders", some "settings.json", false, .regenerate "Foo" false⟩ :
      Invocation).Uses describedFoo { (default : Settings) with fragmentExt := "glsl" } := by
    refine loadSettings_yields_iff.mpr ⟨⟨_, readText_of_readFile rfl, ?_⟩, rfl⟩
    decide +kernel
  have hregen : Request.parse ["--settings", "settings.json", "regen", "Foo"] =
      .run ⟨"Shaders", some "settings.json", false, .regenerate "Foo" false⟩ := by
    decide +kernel
  have hexit : (answer ["--settings", "settings.json", "regen", "Foo"] none describedFoo).exit = 0 := by
    decide +kernel
  have hapart : ∀ path : Path, path ∈ [⟨"Shaders/Foo.glsl"⟩, ⟨"Shaders/FooSDF.glsl"⟩] →
      describedFoo.find path ≠ describedFoo.find ⟨"settings.json"⟩ := by
    decide +kernel
  obtain ⟨g, hdriver, hsdf, -, hshow⟩ := show_agrees_with_regen hregen rfl huses
    ⟨by decide, by decide⟩ (by rintro file ⟨⟩; exact hapart) hexit rfl
  have hboth := hshow ["--settings", "settings.json", "show", "Foo"]
    ⟨"Shaders", some "settings.json", false, .print "Foo" false false⟩ _ _ none (by decide +kernel)
    rfl rfl rfl describedFoo List.mem_cons_self
  have hone := hshow ["--settings", "settings.json", "show", "Foo", "--driver-only"]
    ⟨"Shaders", some "settings.json", false, .print "Foo" false true⟩ _ _ none (by decide +kernel)
    rfl rfl rfl _ (List.mem_cons_of_mem _ List.mem_cons_self)
  exact ⟨g, hdriver, hsdf, hboth.2.1, hboth.2.2.1, hone.2.1,
    hboth.2.2.2.trans hone.2.2.2.symm⟩

end Cli

end FractalShader
