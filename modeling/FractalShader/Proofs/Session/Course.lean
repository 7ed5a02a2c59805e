import FractalShader.Proofs.Config.Edits
import FractalShader.Proofs.Session.Unusable

/-!
# The course of a session

A session is told one command after another, and between two of them others may do to
the disk what they like.  As long as no name is given unchecked, its configuration
always has a name that can be used; and to give it a name either fails, or loads what
the document of that name says, or changes the name alone.

* `Store.tryLoad_yields_iff`, `Store.load_yields_some_iff`,
  `Store.load_yields_none_iff` — what loading gives, by what is read;
* `Reached` — the sessions that come from a new one, each command on a disk of its own;
* `isValid_step` — what one command does to the name;
* `Renamed` — what giving a name does;
* `named_throughout` — both hold throughout.
-/

namespace FractalShader

open FractalShader.Action FractalShader.Disk

namespace Store

variable {s : Store} {d d' : Disk} {name : String} {c : Config}

/-- A preset is loaded where its driver is there and its document can be read. -/
theorem tryLoad_yields_iff : (s.tryLoad name).Yields d c d' ↔
    d.exists? (s.artifacts name).driver = .ok true ∧ (s.readDocument name).Yields d c d' := by
  constructor
  · intro h
    rw [tryLoad, yields_bind] at h
    obtain ⟨paths, d₁, hpaths, h⟩ := h
    rw [yields_of, paths_eq_ok_iff] at hpaths
    obtain ⟨⟨-, rfl⟩, rfl⟩ := hpaths
    obtain ⟨present, d₂, hask, h⟩ := yields_bind.mp h
    obtain ⟨hpresent, rfl⟩ := yields_ask.mp hask
    cases present with
    | true => exact ⟨hpresent, h⟩
    | false => exact absurd h yields_refuse
  · rintro ⟨hdriver, h⟩
    rwa [Yields, tryLoad_run (readDocument_yields_iff.mp h).1 hdriver]

theorem load_yields_some_iff :
    (s.load name).Yields d (some c) d' ↔ (s.tryLoad name).Yields d c d' := by
  rw [load, yields_bind]
  constructor
  · rintro ⟨r, d₁, htry, h⟩
    obtain ⟨hr, rfl⟩ := yields_attempt.mp htry
    cases r with
    | ok found =>
      obtain ⟨hfound, rfl⟩ := yields_pure.mp h
      obtain rfl := Option.some.inj hfound
      exact ⟨hr, rfl⟩
    | error e =>
      dsimp only at h
      split at h
      · obtain ⟨_, _, -, h⟩ := yields_bind.mp h
        exact absurd (yields_pure.mp h).1 (by simp)
      · exact absurd h yields_refuse
  · intro h
    exact ⟨.ok c, d', yields_attempt.mpr h, yields_pure.mpr ⟨rfl, rfl⟩⟩

/-- Nothing is loaded where the attempt fails with an error that says so. -/
theorem load_yields_none_iff : (s.load name).Yields d none d' ↔
    ∃ e, (s.tryLoad name).Fails d e d' ∧ e.isAbsent = true := by
  constructor
  · intro h
    rw [load, yields_bind] at h
    obtain ⟨r, d₁, htry, h⟩ := h
    obtain ⟨hr, rfl⟩ := yields_attempt.mp htry
    cases r with
    | ok found => exact absurd (yields_pure.mp h).1 (by simp)
    | error e =>
      dsimp only at h
      split at h
      · next habsent =>
        simp only [yields_bind, yields_emit, yields_pure] at h
        obtain ⟨_, _, rfl, -, rfl⟩ := h
        exact ⟨e, ⟨hr, rfl⟩, habsent⟩
      · exact absurd h yields_refuse
  · rintro ⟨e, h, habsent⟩
    exact load_yields_none_of_absent h habsent

end Store

theorem PresetError.isAbsent_iff {e : PresetError} : e.isAbsent = true ↔
    (∃ n, e = .notFound n) ∨ ∃ path reason, e = .malformedDocument path reason := by
  cases e <;> simp [isAbsent]

namespace Session

variable {s t : Session} {d d' : Disk} {name : String}

/-! ## Commands one after another -/

/-- The edit that gives a name without a check. -/
def Command.Unchecked : Command → Prop
  | .edit (.setName _) => True
  | _ => False

/-- The session comes from a new one over `store` by commands that check every name, each on
whatever disk it finds. -/
inductive Reached (store : Store) : Session → Prop where
  | start : Reached store (start store)
  | step {s : Session} {c : Command} (h : Reached store s) (hc : ¬ c.Unchecked) (d : Disk) :
      Reached store (s.step c d).1

/-- An edit that succeeds keeps the name, unless it gives another. -/
theorem name_of_apply {c c' : Config} {e : Edit} {removed : Option FoldKind}
    (he : ¬ (Command.edit e).Unchecked) (h : c.apply e = .ok (c', removed)) : c'.name = c.name := by
  cases e with
  | setName name => exact absurd trivial he
  | push | clear | setTerminal | setOperations =>
    cases h
    rfl
  | insert index kind =>
    obtain ⟨r, hinsert, heq⟩ := Config.map_eq_ok_iff.mp h
    obtain ⟨-, rfl⟩ := Config.insert_eq_ok_iff.mp hinsert
    cases heq
    rfl
  | removeAt index =>
    obtain ⟨⟨kind, r⟩, hremove, heq⟩ := Config.map_eq_ok_iff.mp h
    obtain ⟨-, rfl⟩ := Config.removeAt_eq_ok_iff.mp hremove
    cases heq
    rfl
  | move source target =>
    obtain ⟨r, hmove, heq⟩ := Config.map_eq_ok_iff.mp h
    cases heq
    exact (Config.moved_of_move hmove).name

/-- A command that checks its name leaves a name that can be used. -/
theorem isValid_step {c : Command} (hc : ¬ c.Unchecked) (hs : PresetName.IsValid s.config.name)
    (d : Disk) : PresetName.IsValid (s.step c d).1.config.name := by
  rcases (((perform c).action s).yields_or_fails d).symm with ⟨e, h⟩ | ⟨⟨t, reply⟩, h⟩
  · rwa [(step_of_fails h).1]
  rw [(step_of_yields h).1]
  cases c with
  | rename name =>
    rw [action_perform_rename] at h
    obtain ⟨⟨t', outcome⟩, d₁, hrename, ht⟩ := yields_bind.mp h
    obtain ⟨ht, -⟩ := yields_pure.mp ht
    obtain ⟨rfl, -⟩ := Prod.mk.inj ht
    obtain ⟨hv, hname⟩ := name_of_rename hrename
    rwa [hname]
  | generate strict =>
    rw [action_perform_generate] at h
    obtain ⟨published, d₁, -, ht⟩ := yields_bind.mp h
    obtain ⟨ht, -⟩ := yields_pure.mp ht
    obtain ⟨rfl, -⟩ := Prod.mk.inj ht
    exact hs
  | edit e =>
    rw [action_perform_edit] at h
    obtain ⟨⟨c', removed⟩, d₁, hedit, ht⟩ := yields_bind.mp h
    obtain ⟨ht, -⟩ := yields_pure.mp ht
    obtain ⟨rfl, -⟩ := Prod.mk.inj ht
    rwa [show c'.name = s.config.name from name_of_apply hc (yields_of.mp hedit).1]

theorem Reached.isValid {store : Store} (h : Reached store s) :
    PresetName.IsValid s.config.name := by
  induction h with
  | start => exact (by decide : PresetName.IsValid defaultName)
  | step _ hc d ih => exact isValid_step hc ih d

/-- The store is the one that the session was opened over. -/
theorem Reached.store_eq {store : Store} (h : Reached store s) : s.store = store := by
  induction h with
  | start => rfl
  | step _ _ d ih => exact (store_serve _ d (.command _)).trans ih

/-! ## Giving a name -/

/-- What it does to give the session a name on the disk `d`: nothing on the disk; and it fails and
leaves the configuration, or loads what the document says, or keeps the chain and the distance
function.  They are kept exactly where a name that can be used has nothing usable. -/
structure Renamed (s : Session) (d : Disk) (name : String) : Prop where
  disk : (s.step (.rename name) d).2.disk = d
  outcome :
    (∃ e, (s.step (.rename name) d).2.result = .error e ∧
        (s.step (.rename name) d).1.config = s.config) ∨
      (∃ c, (s.step (.rename name) d).2.result = .ok (.renamed .loaded) ∧
        (s.step (.rename name) d).1.config = c ∧ (s.store.readDocument name).Yields d c d) ∨
      (s.step (.rename name) d).2.result = .ok (.renamed .kept) ∧
        (s.step (.rename name) d).1.config = ⟨name, s.config.operations, s.config.terminal⟩
  kept_iff : (s.step (.rename name) d).2.result = .ok (.renamed .kept) ↔
    PresetName.IsValid name ∧ ∃ e, ((s.store.tryLoad name).run d).result = .error e ∧
      ((∃ n, e = .notFound n) ∨ ∃ path reason, e = .malformedDocument path reason)

/-- The three ways in which giving a name ends, by what loading gives. -/
theorem step_rename_cases (s : Session) (d : Disk) (name : String) :
    (∃ e, (s.step (.rename name) d).2.result = .error e ∧ (s.step (.rename name) d).1 = s) ∨
      ∃ found, (s.store.load name).Yields d found d ∧ PresetName.IsValid name ∧
        (s.step (.rename name) d).1 = (s.renamed name found).1 ∧
        (s.step (.rename name) d).2.result = .ok (.renamed (s.renamed name found).2) := by
  rcases (((perform (.rename name)).action s).yields_or_fails d).symm with ⟨e, h⟩ | ⟨⟨t, reply⟩, h⟩
  · obtain ⟨hs, hr, -⟩ := step_of_fails h
    exact .inl ⟨e, hr, hs⟩
  right
  obtain ⟨hs, hr, -⟩ := step_of_yields h
  rw [action_perform_rename] at h
  obtain ⟨⟨t', outcome⟩, d₁, hrename, ht⟩ := yields_bind.mp h
  obtain ⟨ht, -⟩ := yields_pure.mp ht
  obtain ⟨rfl, rfl⟩ := Prod.mk.inj ht
  obtain ⟨hv, found, hload, hfound⟩ := rename_yields_iff.mp hrename
  obtain rfl := (s.store.readsOnly_load name).disk_eq hload
  exact ⟨found, hload, hv, hs.trans (congrArg Prod.fst hfound), by rw [hr, ← hfound]⟩

/-- Giving a name is one of the three. -/
theorem renamed_of_step (s : Session) (d : Disk) (name : String) : s.Renamed d name := by
  have hdisk : (s.step (.rename name) d).2.disk = d := by
    rw [disk_step]
    exact s.readsOnly_perform_rename name d
  -- where nothing usable is there, loading gives nothing, so the name is given
  have hkept : (s.step (.rename name) d).2.result = .ok (.renamed .kept) ↔
      PresetName.IsValid name ∧ ∃ e, ((s.store.tryLoad name).run d).result = .error e ∧
        ((∃ n, e = .notFound n) ∨ ∃ path reason, e = .malformedDocument path reason) := by
    constructor
    · intro h
      rcases s.step_rename_cases d name with ⟨e, hr, -⟩ | ⟨found, hload, hv, -, hr⟩
      · exact absurd (h.symm.trans hr) (by simp)
      · cases found with
        | some c => exact absurd (h.symm.trans hr) (by simp [renamed])
        | none =>
          obtain ⟨e, hfail, habsent⟩ := Store.load_yields_none_iff.mp hload
          exact ⟨hv, e, hfail.1, PresetError.isAbsent_iff.mp habsent⟩
    · rintro ⟨hv, e, hfail, habsent⟩
      have htry : (s.store.tryLoad name).Fails d e d := ⟨hfail, s.store.readsOnly_tryLoad name d⟩
      have hload := Store.load_yields_none_of_absent htry (PresetError.isAbsent_iff.mpr habsent)
      have hrename := rename_yields_iff.mpr ⟨hv, none, hload, rfl⟩
      have hperform : ((perform (.rename name)).action s).Yields d
          ((s.renamed name none).1, .renamed .kept) d := by
        rw [action_perform_rename]
        exact yields_bind.mpr ⟨_, _, hrename, yields_pure.mpr ⟨rfl, rfl⟩⟩
      exact (step_of_yields hperform).2.1
  refine ⟨hdisk, ?_, hkept⟩
  rcases s.step_rename_cases d name with ⟨e, hr, hs⟩ | ⟨found, hload, -, hs, hr⟩
  · exact .inl ⟨e, hr, by rw [hs]⟩
  · cases found with
    | some c =>
      have hread := (Store.tryLoad_yields_iff.mp (Store.load_yields_some_iff.mp hload)).2
      exact .inr (.inl ⟨c, hr, by rw [hs]; rfl, hread⟩)
    | none => exact .inr (.inr ⟨hr, by rw [hs]; rfl⟩)

/-! ## Throughout -/

/-- **The name of a session can be used throughout, and giving it another is one of three things.**
For every session that comes from a new one by commands that check names, in any number and order
and with whatever results, the disk changing between them in any way: its name can be used, it is
still over its store, and to give it any name on any disk is what `Renamed` says. -/
theorem named_throughout {store : Store} (h : Reached store s) :
    PresetName.IsValid s.config.name ∧ s.store = store ∧ ∀ d name, s.Renamed d name :=
  ⟨h.isValid, h.store_eq, s.renamed_of_step⟩

/-- A new session over the directory `shaders`, told to add a fold on a disk that holds nothing. -/
def folded : Session :=
  ((start ⟨⟨"shaders"⟩, default⟩).step (.edit (.push .boxFold)) (Disk.empty ["scratch"])).1

/-- Somebody then puts a driver and a document that says nothing on the disk: under that name the
session keeps its fold. -/
theorem named_throughout_folded : Reached ⟨⟨"shaders"⟩, default⟩ folded ∧
    PresetName.IsValid folded.config.name ∧
    (folded.step (.rename "Foo") (documentOf "not json".toUTF8)).2.result = .ok (.renamed .kept) ∧
    (folded.step (.rename "Foo") (documentOf "not json".toUTF8)).1.config =
      ⟨"Foo", [.boxFold], .mandelbrot⟩ := by
  have hreached : Reached ⟨⟨"shaders"⟩, default⟩ folded := .step .start id _
  obtain ⟨hv, -, hrenamed⟩ := named_throughout hreached
  obtain ⟨-, houtcome, hkept⟩ := hrenamed (documentOf "not json".toUTF8) "Foo"
  obtain ⟨fault, hfault⟩ : ∃ fault, Document.decode "not json" = .error fault :=
    Document.decode_of_head rfl (by decide) (by decide) (by decide)
  have htext : (documentOf "not json".toUTF8).readText
      (Store.documentPath ⟨⟨"shaders"⟩, default⟩ "Foo") = .ok "not json" := readText_of_readFile rfl
  have hread := Store.readDocument_fails_of_decode (by decide) htext hfault
  rw [Fails, ← Store.tryLoad_run (by decide) rfl] at hread
  have hresult := hkept.mpr ⟨by decide, _, hread.1, .inr ⟨_, _, rfl⟩⟩
  refine ⟨hreached, hv, hresult, ?_⟩
  rcases houtcome with ⟨e, he, -⟩ | ⟨c, hloaded, -⟩ | ⟨-, hconfig⟩
  · exact absurd (hresult.symm.trans he) (by simp)
  · exact absurd (hresult.symm.trans hloaded) (by simp)
  · exact hconfig

end Session

end FractalShader
