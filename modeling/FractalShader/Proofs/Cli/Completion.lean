import FractalShader.Proofs.Cli.Task

/-!
# Commands that complete

A command that completes ends with something to print, and it has shown some lines at
the terminal on the way.  These lines are its notices; what is logged besides can be
turned off.

* `Completes` — how a part of a command ends, what it shows and the disk that it
  leaves, with a law for each way of building one;
* `Silent` — an action that shows nothing at the terminal;
* `completes_task_iff` — an invocation completes when its settings can be had and its
  command completes with them;
* `exit_eq_zero_iff`, `answer_of_completes`, `stderr_of_completes` — what the answer
  says of it.
-/

namespace FractalShader

open FractalShader.Action FractalShader.Disk

/-! ## Notices -/

/-- The line that an event shows at the terminal, whatever is logged. -/
def Event.notice? : Event → Option String
  | .notice text => some text
  | _ => none

/-- The lines that are shown at the terminal. -/
def notices (es : List Event) : List String := es.filterMap Event.notice?

theorem notices_cons (e : Event) (es : List Event) :
    notices (e :: es) = e.notice?.toList ++ notices es := by
  rw [notices, List.filterMap_cons]
  cases e.notice? <;> rfl

@[simp] theorem notices_append (es fs : List Event) :
    notices (es ++ fs) = notices es ++ notices fs :=
  List.filterMap_append

theorem notices_map_notice {α : Type} (f : α → String) (as : List α) :
    notices (as.map fun a => .notice (f a)) = as.map f := by
  rw [notices, List.filterMap_map]
  exact congrFun List.filterMap_eq_map as

namespace Action

variable {α β : Type} {x : Action α} {f : α → Action β}

/-- The action shows nothing at the terminal. -/
def Silent (x : Action α) : Prop := ∀ d, notices (x.run d).events = []

theorem silent_pure (a : α) : (pure a : Action α).Silent := fun _ => rfl

theorem silent_refuse (e : PresetError) : (refuse e : Action α).Silent := fun _ => rfl

theorem silent_of (r : Except PresetError α) : (of r).Silent := fun _ => rfl

theorem silent_look (f : Disk → α) : (look f).Silent := fun _ => rfl

theorem silent_ask (p : Path) (f : Disk → Except OsError α) : (ask p f).Silent := fun _ => rfl

theorem silent_request (p : Path) (f : Disk → Disk × Except OsError α) : (request p f).Silent :=
  fun _ => rfl

theorem silent_emit {e : Event} (h : e.notice? = none) : (emit e).Silent := by
  intro d
  show notices [e] = []
  rw [notices_cons, h]
  rfl

theorem silent_emitAll {es : List Event} (h : ∀ e ∈ es, e.notice? = none) : (emitAll es).Silent :=
  fun _ => List.filterMap_eq_nil_iff.mpr h

theorem Silent.bind (hx : x.Silent) (hf : ∀ a, (f a).Silent) : (x >>= f).Silent := by
  intro d
  cases h : (x.run d).result with
  | ok a => rw [run_bind_ok h, notices_append, hx d, hf a, List.append_nil]
  | error e => rw [run_bind_error h, hx d]

end Action

namespace Cli

variable {α β : Type} {d d' d'' : Disk} {ns : List String}

/-! ## Parts of commands -/

/-- On `d`, the part ends with `a`, after showing the lines `ns`, and leaves `d'`. -/
structure Completes (t : Task α) (d : Disk) (a : α) (ns : List String) (d' : Disk) : Prop where
  result : (t.run.run d).result = .ok (.ok a)
  shown : notices (t.run.run d).events = ns
  disk : (t.run.run d).disk = d'

theorem Completes.unique {t : Task α} {a b : α} {ms : List String} (h : Completes t d a ns d')
    (h' : Completes t d b ms d'') : a = b ∧ ns = ms ∧ d' = d'' :=
  ⟨Except.ok.inj (Except.ok.inj (h.result.symm.trans h'.result)), h.shown.symm.trans h'.shown,
    h.disk.symm.trans h'.disk⟩

theorem Completes.pure (a : α) (d : Disk) : Completes (pure a : Task α) d a [] d :=
  ⟨rfl, rfl, rfl⟩

theorem Completes.notice (text : String) (d : Disk) : Completes (notice text) d () [text] d :=
  ⟨rfl, rfl, rfl⟩

theorem Completes.noticeWarnings (warnings : List Warning) (d : Disk) :
    Completes (noticeWarnings warnings) d () (warnings.map fun w => "warning: " ++ w.message) d := by
  refine ⟨rfl, ?_, rfl⟩
  show notices (warnings.map (fun w => .notice ("warning: " ++ w.message)) ++ []) = _
  rw [List.append_nil, notices_map_notice]

/-- A part that completes does so in one way. -/
theorem completes_iff_of_completes {t : Task α} {a b : α} {ms : List String}
    (h : Completes t d a ms d') : Completes t d b ns d'' ↔ b = a ∧ ns = ms ∧ d'' = d' := by
  constructor
  · intro h'
    obtain ⟨rfl, rfl, rfl⟩ := h'.unique h
    exact ⟨rfl, rfl, rfl⟩
  · rintro ⟨rfl, rfl, rfl⟩
    exact h

@[simp] theorem completes_pure {a b : α} :
    Completes (pure a) d b ns d' ↔ b = a ∧ ns = [] ∧ d' = d :=
  completes_iff_of_completes (Completes.pure a d)

@[simp] theorem completes_notice {text : String} {u : Unit} :
    Completes (notice text) d u ns d' ↔ ns = [text] ∧ d' = d := by
  simp [completes_iff_of_completes (Completes.notice text d)]

theorem run_bind (t : Task α) (f : α → Task β) : (t >>= f).run = t.run >>= fun r => match r with
    | .ok a => (f a).run
    | .error failure => pure (.error failure) :=
  congrArg (t.run >>= ·) (funext fun r => by cases r <;> rfl)

/-- A sequence completes when its first part does and then the second. -/
theorem Completes.bind {t : Task α} {f : α → Task β} {a : α} {b : β} {ms ks : List String}
    (h : Completes t d a ms d') (hf : Completes (f a) d' b ks d'') :
    Completes (t >>= f) d b (ms ++ ks) d'' := by
  obtain ⟨hr, rfl, rfl⟩ := h
  obtain ⟨hrest, rfl, rfl⟩ := hf
  refine ⟨?_, ?_, ?_⟩
  · rw [run_bind]
    exact result_bind_eq_ok_iff.mpr ⟨.ok a, hr, hrest⟩
  · rw [run_bind, run_bind_ok hr, notices_append]
  · rw [run_bind, run_bind_ok hr]

/-- And only then. -/
theorem completes_bind {t : Task α} {f : α → Task β} {b : β} :
    Completes (t >>= f) d b ns d'' ↔ ∃ a ms d' ks, Completes t d a ms d' ∧
      Completes (f a) d' b ks d'' ∧ ns = ms ++ ks := by
  constructor
  · rintro ⟨hresult, hshown, hdisk⟩
    rw [run_bind] at hresult hshown hdisk
    obtain ⟨r, hr, hrest⟩ := result_bind_eq_ok_iff.mp hresult
    rw [run_bind_ok hr] at hshown hdisk
    cases r with
    | ok a =>
      exact ⟨a, _, _, _, ⟨hr, rfl, rfl⟩, ⟨hrest, rfl, hdisk⟩, by rw [← hshown, notices_append]⟩
    | error failure => exact absurd hrest (by simp)
  · rintro ⟨a, ms, d', ks, h, hf, rfl⟩
    exact h.bind hf

theorem run_doing (context : Option String) (x : Action α) (d : Disk) :
    (doing context x).run.run d = ⟨.ok (match (x.run d).result with
      | .ok a => .ok a
      | .error e => .error (.preset context e)), (x.run d).disk, (x.run d).events⟩ := by
  have hattempt : (x.attempt.run d).result = .ok (x.run d).result := rfl
  show (attempt x >>= _).run d = _
  rw [run_bind_ok hattempt]
  cases (x.run d).result <;> simp [attempt]

/-- An action completes as a part when it succeeds. -/
theorem Completes.doing {x : Action α} {a : α} (h : x.Yields d a d') (context : Option String) :
    Completes (doing context x) d a (notices (x.run d).events) d' := by
  obtain ⟨hresult, rfl⟩ := h
  refine ⟨?_, ?_, ?_⟩ <;> rw [run_doing]
  rw [hresult]

theorem completes_doing {context : Option String} {x : Action α} {a : α} :
    Completes (Cli.doing context x) d a ns d' ↔
      x.Yields d a d' ∧ ns = notices (x.run d).events := by
  constructor
  · rintro ⟨hresult, rfl, rfl⟩
    rw [run_doing] at hresult ⊢
    refine ⟨⟨?_, rfl⟩, rfl⟩
    cases h : (x.run d).result with
    | ok b => simpa [h] using hresult
    | error e => simp [h] at hresult
  · rintro ⟨hy, rfl⟩
    exact Completes.doing hy context

theorem completes_doing_of_silent {context : Option String} {x : Action α} (hx : x.Silent) {a : α} :
    Completes (doing context x) d a ns d' ↔ x.Yields d a d' ∧ ns = [] := by
  rw [completes_doing, hx d]

theorem Completes.doing_silent {x : Action α} (hx : x.Silent) {a : α} (h : x.Yields d a d')
    (context : Option String) : Completes (Cli.doing context x) d a [] d' :=
  (completes_doing_of_silent hx).mpr ⟨h, rfl⟩

/-! ## Invocations -/

/-- The store on which an invocation works with these settings. -/
def Invocation.store (i : Invocation) (settings : Settings) : Store := ⟨⟨i.dir⟩, settings⟩

theorem Invocation.store_congr {i j : Invocation} (h : j.dir = i.dir) (settings : Settings) :
    j.store settings = i.store settings := by
  rw [store, store, h]

/-- The settings with which an invocation works on `d`. -/
def Invocation.Uses (i : Invocation) (d : Disk) (settings : Settings) : Prop :=
  match i.settings with
  | none => settings = default
  | some file => (Settings.load ⟨file⟩).Yields d settings d

theorem readsOnly_loadSettings (p : Path) : (Settings.load p).ReadsOnly := by
  refine ReadsOnly.bind (readsOnly_ask _ _) fun text => ?_
  cases Settings.decode text with
  | ok settings => exact readsOnly_pure _
  | error fault => exact readsOnly_refuse _

theorem loadSettings_yields_iff {p : Path} {settings : Settings} :
    (Settings.load p).Yields d settings d' ↔
      (∃ text, d.readText p = .ok text ∧ Settings.decode text = .ok settings) ∧ d' = d := by
  unfold Settings.load
  rw [yields_bind]
  constructor
  · rintro ⟨text, d₁, hread, hdecode⟩
    obtain ⟨hread, rfl⟩ := yields_ask.mp hread
    cases hd : Settings.decode text with
    | ok found =>
      simp only [hd] at hdecode
      obtain ⟨rfl, rfl⟩ := yields_pure.mp hdecode
      exact ⟨⟨text, hread, hd⟩, rfl⟩
    | error fault =>
      simp only [hd] at hdecode
      exact absurd hdecode yields_refuse
  · rintro ⟨⟨text, hread, hd⟩, rfl⟩
    refine ⟨text, d', yields_ask.mpr ⟨hread, rfl⟩, ?_⟩
    simp only [hd]
    exact yields_pure.mpr ⟨rfl, rfl⟩

theorem silent_loadSettings (p : Path) : (Settings.load p).Silent := by
  refine Silent.bind (silent_ask _ _) fun text => ?_
  cases Settings.decode text with
  | ok settings => exact silent_pure _
  | error fault => exact silent_refuse _

/-- The settings are read first, and then the command does all the rest. -/
theorem completes_task_iff {i : Invocation} {ending : Ending} :
    Completes i.task d ending ns d' ↔ ∃ settings, i.Uses d settings ∧
      Completes (i.command.task (i.store settings)) d ending ns d' := by
  obtain ⟨dir, settings?, verbose, command⟩ := i
  cases settings? with
  | none =>
    show Completes (pure default >>= fun settings => command.task ⟨⟨dir⟩, settings⟩) d ending ns d'
      ↔ ∃ settings, settings = default ∧ Completes (command.task ⟨⟨dir⟩, settings⟩) d ending ns d'
    rw [completes_bind]
    constructor
    · rintro ⟨settings, ms, d₁, ks, hsettings, hcommand, rfl⟩
      obtain ⟨rfl, rfl, rfl⟩ := completes_pure.mp hsettings
      exact ⟨_, rfl, hcommand⟩
    · rintro ⟨settings, rfl, hcommand⟩
      exact ⟨_, [], d, ns, completes_pure.mpr ⟨rfl, rfl, rfl⟩, hcommand, rfl⟩
  | some file =>
    show Completes (doing (some ("cannot load settings '" ++ file ++ "'")) (Settings.load ⟨file⟩)
        >>= fun settings => command.task ⟨⟨dir⟩, settings⟩) d ending ns d'
      ↔ ∃ settings, (Settings.load ⟨file⟩).Yields d settings d ∧
        Completes (command.task ⟨⟨dir⟩, settings⟩) d ending ns d'
    rw [completes_bind]
    constructor
    · rintro ⟨settings, ms, d₁, ks, hsettings, hcommand, rfl⟩
      obtain ⟨hy, rfl⟩ := (completes_doing_of_silent (silent_loadSettings ⟨file⟩)).mp hsettings
      obtain rfl := (readsOnly_loadSettings ⟨file⟩).disk_eq hy
      exact ⟨settings, hy, hcommand⟩
    · rintro ⟨settings, hy, hcommand⟩
      exact ⟨settings, [], d, ns,
        (completes_doing_of_silent (silent_loadSettings ⟨file⟩)).mpr ⟨hy, rfl⟩, hcommand, rfl⟩

/-! ## Answers -/

/-- An invocation ends well exactly when its task completes. -/
theorem exit_eq_zero_iff {i : Invocation} {filter : Option String} :
    (i.answer filter d).exit = 0 ↔ ∃ ending ns, Completes i.task d ending ns
      (i.answer filter d).disk := by
  have hdisk : (i.answer filter d).disk = (i.task.run.run d).disk := by
    cases hresult : (i.task.run.run d).result with
    | ok r =>
      rcases r with failure | ⟨text⟩ | ⟨store, strict⟩ <;> simp only [Invocation.answer, hresult]
    | error e => simp only [Invocation.answer, hresult]
  constructor
  · intro h
    rw [hdisk]
    cases hresult : (i.task.run.run d).result with
    | ok r =>
      cases r with
      | ok ending => exact ⟨ending, _, hresult, rfl, rfl⟩
      | error failure =>
        simp only [Invocation.answer, hresult] at h
        exact absurd h (by decide)
    | error e =>
      simp only [Invocation.answer, hresult] at h
      exact absurd h (by decide)
  · rintro ⟨ending, ns, hresult, -, -⟩
    simp only [Invocation.answer, hresult]
    cases ending <;> rfl

theorem answer_of_parse {args : List String} {i : Invocation} (h : Request.parse args = .run i)
    (filter : Option String) (d : Disk) : answer args filter d = i.answer filter d := by
  rw [answer, h]

theorem answer_of_completes {i : Invocation} {text : String}
    (h : Completes i.task d (.printed text) ns d') (filter : Option String) :
    (i.answer filter d).exit = 0 ∧ (i.answer filter d).stdout = text ∧
      (i.answer filter d).disk = d' := by
  simp only [Invocation.answer, h.result, h.disk, and_self]

/-- With `off` for a filter, nothing is logged. -/
theorem shown_off (verbose : Bool) (e : Event) :
    Log.shown (Log.Filter.choose (some "off") verbose) verbose e =
      match e.notice? with
      | some text => text ++ "\n"
      | none => "" := by
  have hfilter : Log.Filter.choose (some "off") verbose = [⟨"", .any, 0⟩] := rfl
  have hhidden : ∀ l : Log.Line, Log.Filter.shows [⟨"", .any, 0⟩] l = false := by
    intro l
    cases hlevel : l.level <;> simp [Log.Filter.shows, Log.Directive.concerns, Log.Scope.admits,
      Log.closer, Log.Level.rank, hlevel]
  rw [hfilter]
  cases e <;> simp [Log.shown, Event.notice?, Log.line?, hhidden]

/-- Then the terminal shows the notices and nothing else. -/
theorem stderr_of_completes {i : Invocation} {ending : Ending}
    (h : Completes i.task d ending ns d') : (i.answer (some "off") d).stderr = lines ns := by
  have hshown : ∀ es : List Event, String.join
      (es.map (Log.shown (Log.Filter.choose (some "off") i.verbose) i.verbose))
        = lines (notices es) := by
    intro es
    induction es with
    | nil => rfl
    | cons e es ih =>
      rw [List.map_cons, String.join_cons, ih, shown_off, notices_cons]
      cases e.notice? with
      | none => exact String.empty_append
      | some text => exact String.join_cons.symm
  have hstderr : (i.answer (some "off") d).stderr = String.join ((i.task.run.run d).events.map
      (Log.shown (Log.Filter.choose (some "off") i.verbose) i.verbose)) := by
    simp only [Invocation.answer, h.result]
    cases ending <;> rfl
  rw [hstderr, hshown, h.shown]

end Cli

end FractalShader
