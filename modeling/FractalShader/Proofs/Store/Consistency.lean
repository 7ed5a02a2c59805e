import FractalShader.Proofs.Store.Run
import FractalShader.Proofs.Store.Stored

/-!
# Consistency of a store over a whole run

The file `nSDF.ext` belongs to two names, so whether the files of one preset are
right depends on what was done to others.  The invariant is that no two presets
`n` and `nSDF` are in the ledger together; then the files of different presets
are different files, and what is written for one leaves the others alone.

* `Consistent` — a directory that agrees with a ledger;
* `Consistent.change` — what one operation may do to its own preset;
* `Agrees.publish`, `Agrees.regenerate`, `Agrees.remove` — each operation keeps
  the store and the ledger in agreement, whatever its result;
* `Run.consistent` — what is listed, loaded and held by the files after any run.
-/

namespace FractalShader

open FractalShader.Action FractalShader.Disk

namespace Store

variable {s : Store} {d d' : Disk} {dir : Place} {name : String} {ledger : Ledger}

/-! ## Changes of other files -/

/-- A stored preset is not touched by changes of other files. -/
theorem Stored.patched {c : Config} {g : Generated} {ps : Patches} (h : s.Stored d dir c g)
    (hp : d.Patched dir ps d') (hother : ∀ f ∈ s.files c.name, ps.lookup f = none) :
    s.Stored d' dir c g where
  valid := h.valid
  known := h.known
  generated := h.generated
  root := hp.directoryAt h.root
  driver := ⟨h.driver.fits, by
    rw [hp.entry_of_not_mem (hother _ (s.driverFile_mem_files c.name))]
    exact h.driver.content⟩
  sdf := ⟨h.sdf.fits, by
    rw [hp.entry_of_not_mem (hother _ (s.sdfFile_mem_files c.name))]
    exact h.sdf.content⟩
  document := ⟨h.document.fits, by
    rw [hp.entry_of_not_mem (hother _ (s.documentFile_mem_files c.name))]
    exact h.document.content⟩

/-! ## Agreement with a ledger -/

/-- The directory `dir` of the store agrees with a ledger: what is in the ledger is stored, what
is not has no document, and no two names of which one is the other with `SDF` appended are in the
ledger. -/
structure Consistent (s : Store) (ledger : Ledger) (d : Disk) (dir : Place) : Prop where
  tidy : s.Tidy d dir
  stored : ∀ n c, ledger n = some c → c.name = n ∧ ∃ g, s.Stored d dir c g
  unlisted : ∀ n, PresetName.IsValid n → ledger n = none →
    d.node? (s.documentFile n :: dir) = none
  apart : ∀ n, ledger n ≠ none → ledger (Fragment.sdfStem n) = none

/-- The store agrees with a ledger, or it is not there and the ledger is blank. -/
def Agrees (s : Store) (ledger : Ledger) (d : Disk) : Prop :=
  (∃ dir, s.Consistent ledger d dir) ∨ s.Absent d ∧ ∀ n, ledger n = none

theorem consistent_blank (h : s.Tidy d dir) (hempty : ∀ f, d.node? (f :: dir) = none)
    (hblank : ∀ n, ledger n = none) : s.Consistent ledger d dir where
  tidy := h
  stored n c hn := by
    rw [hblank n] at hn
    exact absurd hn (by simp)
  unlisted n _ _ := hempty _
  apart n _ := hblank _

theorem Vacant.agrees (h : s.Vacant d) : s.Agrees Ledger.blank d := by
  rcases h with ⟨dir, hd, hempty⟩ | h
  · have ht : s.Tidy d dir := ⟨hd, fun f hf => absurd (hempty f) hf⟩
    exact .inl ⟨dir, consistent_blank ht hempty fun _ => rfl⟩
  · exact .inr ⟨h, fun _ => rfl⟩

namespace Agrees

theorem consistent_of_directoryAt (h : s.Agrees ledger d) (hd : d.directoryAt s.root = .ok dir) :
    s.Consistent ledger d dir := by
  rcases h with ⟨dir', h⟩ | ⟨h, -⟩
  · obtain rfl := Except.ok.inj (h.tidy.root.symm.trans hd)
    exact h
  · exact absurd hd (h.root dir)

theorem orderly (h : s.Agrees ledger d) : s.Orderly d := by
  rcases h with ⟨dir, h⟩ | ⟨h, -⟩
  · exact .inl ⟨dir, h.tidy⟩
  · exact .inr h

/-- To make the directory of the store is no step of its ledger. -/
theorem rooted (h : s.Agrees ledger d) : s.Agrees ledger (s.rooted d) := by
  rcases h with ⟨dir, h⟩ | ⟨h, hblank⟩
  · rw [rooted_of_directoryAt h.tidy.root]
    exact .inl ⟨dir, h⟩
  · by_cases hd : ∃ dir, (s.rooted d).directoryAt s.root = .ok dir
    · obtain ⟨dir, hd⟩ := hd
      have hempty := h.entry_eq_none hd
      have ht : s.Tidy (s.rooted d) dir := ⟨hd, fun f hf => absurd (hempty f) hf⟩
      exact .inl ⟨dir, consistent_blank ht hempty hblank⟩
    · exact .inr ⟨⟨fun dir hc => hd ⟨dir, hc⟩, h.no_up⟩, hblank⟩

/-- What is in the ledger is stored. -/
theorem stored (h : s.Agrees ledger d) {c : Config} (hn : ledger name = some c) :
    c.name = name ∧ ∃ dir g, s.Consistent ledger d dir ∧ s.Stored d dir c g := by
  rcases h with ⟨dir, h⟩ | ⟨-, hblank⟩
  · obtain ⟨hname, g, hg⟩ := h.stored name c hn
    exact ⟨hname, dir, g, h, hg⟩
  · rw [hblank name] at hn
    exact absurd hn (by simp)

/-- A name that has no document is not in the ledger. -/
theorem eq_none_of_hasDocument (hs : s.settings.SlashFree) (h : s.Agrees ledger d)
    (hy : (s.hasDocument name).Yields d false d') : ledger name = none := by
  cases hn : ledger name with
  | none => rfl
  | some c =>
    obtain ⟨rfl, dir, g, hc, hg⟩ := h.stored hn
    have := hasDocument_yields_of_directoryAt hs hc.tidy.root hy
    rw [hg.document.content] at this
    exact absurd this (by simp)

/-- A name that passes the check for collisions is apart from the whole ledger. -/
theorem separate (hs : s.settings.SlashFree) (h : s.Agrees ledger d)
    (hcheck : (s.checkCollision name).Yields d () d) :
    ledger (Fragment.sdfStem name) = none ∧
      ∀ base, name = Fragment.sdfStem base → ledger base = none := by
  obtain ⟨hbase, hstem⟩ := checkCollision_yields hcheck
  refine ⟨h.eq_none_of_hasDocument hs hstem, ?_⟩
  intro base heq
  cases hn : ledger base with
  | none => rfl
  | some c =>
    obtain ⟨rfl, dir, g, -, hg⟩ := h.stored hn
    have := h.eq_none_of_hasDocument hs (hbase c.name heq hg.valid)
    rw [this] at hn
    exact absurd hn (by simp)

/-- What is not in the ledger has no document that can be read. -/
theorem not_readDocument (hs : s.settings.SlashFree) (h : s.Agrees ledger d)
    (hn : ledger name = none) {c : Config} : ¬ (s.readDocument name).Yields d c d' := by
  intro hy
  obtain ⟨hv, -, -⟩ := readDocument_yields_iff.mp hy
  obtain ⟨dir, content, hd, hread⟩ := readDocument_content hs hy
  rcases h with ⟨dir', h⟩ | ⟨h, -⟩
  · have hf := isEntryName_documentFile hs hv
    have hnode := ((readFile_join_eq_ok_iff h.tidy.root hf).mp hread).2
    rw [h.unlisted name hv hn] at hnode
    exact absurd hnode (by simp)
  · exact h.root dir hd

/-- Only what stands at each place counts. -/
theorem congr (h : s.Agrees ledger d) (hhome : d'.home = d.home)
    (hsame : ∀ q, d'.node? q = d.node? q) : s.Agrees ledger d' := by
  have htree : d.SameTree d' := ⟨hhome, hsame⟩
  rcases h with ⟨dir, h⟩ | ⟨h, hblank⟩
  · have hp := htree.patched dir
    refine .inl ⟨dir, ⟨hp.directoryAt h.tidy.root, ?_⟩, ?_, ?_, h.apart⟩
    · intro f hf
      rw [hsame] at hf
      obtain ⟨hname, hr⟩ := h.tidy.entry f hf
      exact ⟨hname, hp.replaceable_iff.mpr hr⟩
    · intro n c hn
      obtain ⟨hname, g, hg⟩ := h.stored n c hn
      exact ⟨hname, g, hg.patched hp fun _ _ => rfl⟩
    · intro n hv hn
      rw [hsame]
      exact h.unlisted n hv hn
  · refine .inr ⟨⟨fun dir hc => ?_, h.no_up⟩, hblank⟩
    exact h.root dir ((htree.symm.patched dir).directoryAt hc)

end Agrees

/-! ## One operation -/

/-- What is done to the files of one name keeps the directory in agreement with the ledger, if
that name is apart from all others and its own entry comes out right. -/
theorem Consistent.change (hs : s.settings.Plain) (h : s.Consistent ledger d dir) {ps : Patches}
    (hp : d.Patched dir ps d') (htidy : s.Tidy d' dir)
    (hkeys : ∀ f c, ps.lookup f = some c → f ∈ s.files name) (entry : Option Config)
    (hstem : ledger (Fragment.sdfStem name) = none)
    (hbase : ∀ base, name = Fragment.sdfStem base → ledger base = none)
    (hstored : ∀ c, entry = some c → c.name = name ∧ ∃ g, s.Stored d' dir c g)
    (hunlisted : entry = none → PresetName.IsValid name →
      d'.node? (s.documentFile name :: dir) = none) :
    s.Consistent (ledger.set name entry) d' dir := by
  have hother : ∀ f, f ∉ s.files name → ps.lookup f = none := fun _ => lookup_eq_none hkeys
  refine ⟨htidy, ?_, ?_, ?_⟩
  · intro n c hn
    by_cases hne : n = name
    · rw [hne, Ledger.set_self] at hn
      rw [hne]
      exact hstored c hn
    · rw [Ledger.set_other hne] at hn
      obtain ⟨hname, g, hg⟩ := h.stored n c hn
      refine ⟨hname, g, hg.patched hp fun f hf => hother f ?_⟩
      intro hf'
      rw [hname] at hf
      rcases shared_file hs hne hf hf' with ⟨heq, -⟩ | ⟨heq, -⟩
      · rw [hbase n heq] at hn
        exact absurd hn (by simp)
      · rw [heq, hstem] at hn
        exact absurd hn (by simp)
  · intro n hv hn
    by_cases hne : n = name
    · rw [hne, Ledger.set_self] at hn
      rw [hne] at hv ⊢
      exact hunlisted hn hv
    · rw [Ledger.set_other hne] at hn
      rw [hp.entry_of_not_mem (hother _ (documentFile_not_mem_files hs hne))]
      exact h.unlisted n hv hn
  · intro n hn
    by_cases hne : n = name
    · rw [hne, Ledger.set_other (sdfStem_ne name)]
      exact hstem
    · rw [Ledger.set_other hne] at hn
      have hstem' : Fragment.sdfStem n ≠ name := fun heq => hn (hbase n heq.symm)
      rw [Ledger.set_other hstem']
      exact h.apart n hn

namespace Agrees

/-- What was published is in the ledger. -/
theorem publish_yields (hs : s.settings.Plain) (h : s.Agrees ledger d) {c : Config} {strict : Bool}
    {p : Published} (hy : (s.publish c strict).Yields d p d') :
    s.Agrees (ledger.set c.name (some c)) d' := by
  obtain ⟨-, hg, dir, hw⟩ := Store.publish_yields hs.slashFree hy
  have hc := h.rooted.consistent_of_directoryAt hw.root
  obtain ⟨hstem, hbase⟩ := h.separate hs.slashFree hw.separate
  have htidy := hc.tidy.patched hw.patched fun _ _ hl =>
    (hw.writable.mem_files hs.slashFree hw.valid hl).2
  refine .inl ⟨dir, hc.change hs hw.patched htidy ?_ _ hstem hbase ?_ ?_⟩
  · intro _ _ hl
    exact (hw.writable.mem_files hs.slashFree hw.valid hl).1
  · intro c' hc'
    obtain rfl := Option.some.inj hc'
    exact ⟨rfl, p.generated, hw.stored hg⟩
  · intro hnone _
    exact absurd hnone (by simp)

/-- A publication that fails leaves the ledger as it is.  Of a name that is in the ledger nothing
was touched; of another name at most fragments were, which nobody has listed. -/
theorem publish_fails (hs : s.settings.Plain) (h : s.Agrees ledger d) {c : Config} {strict : Bool}
    {e : PresetError} (hf : (s.publish c strict).Fails d e d') : s.Agrees ledger d' := by
  rcases Store.publish_fails hs.slashFree hf with rfl | ⟨hv, hcheck, htouch⟩
  · exact h
  cases hn : ledger c.name with
  | some c' =>
    obtain ⟨hname, dir, g, hc, hg⟩ := h.stored hn
    have hw : s.Writable d dir c.name := hname ▸ hg.writable
    rw [publish_fails_of_writable hs.slashFree hc.tidy.root hw hf]
    exact h
  | none =>
    rcases htouch with rfl | rfl | ⟨dir, ps, hd, hp, hmem⟩
    · exact h
    · exact h.rooted
    · have hc := h.rooted.consistent_of_directoryAt hd
      obtain ⟨hstem, hbase⟩ := h.separate hs.slashFree hcheck
      have hkeys : ∀ f k, ps.lookup f = some k → f ∈ s.files c.name := by
        intro f k hl
        exact mem_files_of_mem_fragments (hmem f k hl).1
      have htidy := hc.tidy.patched hp fun f k hl => (hmem f k hl).2
      have hdocument : ps.lookup (s.documentFile c.name) = none :=
        lookup_eq_none (fun f k hl => (hmem f k hl).1) (s.documentFile_not_mem_fragments c.name)
      have hchange := hc.change hs hp htidy hkeys none hstem hbase
        (fun c' hc' => absurd hc' (by simp)) fun _ _ => by
          rw [hp.entry_of_not_mem hdocument]
          exact hc.unlisted c.name hv hn
      rw [Ledger.set_none hn] at hchange
      exact .inl ⟨dir, hchange⟩

/-- To regenerate a preset changes nothing at all, whatever the result: where it is in the ledger
its fragments are right already, and where it is not there is no document to start from. -/
theorem regenerate (hs : s.settings.Plain) (h : s.Agrees ledger d) (name : String)
    (strict : Bool) : s.Agrees ledger ((s.regenerate name strict).run d).disk := by
  cases hn : ledger name with
  | none =>
    rcases (s.readDocument name).yields_or_fails d with ⟨c, hy⟩ | ⟨e, hfail⟩
    · exact absurd hy (h.not_readDocument hs.slashFree hn)
    · rw [Store.regenerate, hfail.disk_bind, s.readsOnly_readDocument name d]
      exact h
  | some c =>
    obtain ⟨rfl, dir, g, hc, hg⟩ := h.stored hn
    rcases (s.regenerate c.name strict).yields_or_fails d with ⟨p, hy⟩ | ⟨e, hfail⟩
    · refine h.congr ?_ (hg.unchanged_of_regenerate hs.slashFree hy)
      obtain ⟨c', dir', -, -, hw⟩ := regenerate_yields hs.slashFree hy
      exact hw.patched.home.trans (made_rooted s d).home
    · rw [regenerate_fails_of_writable hs.slashFree hc.tidy.root hg.writable hfail]
      exact h

/-- What is listed is in the ledger. -/
theorem stored_of_lists (h : s.Agrees ledger d) (hl : s.Lists d name) :
    ∃ c, ledger name = some c := by
  rcases h with ⟨dir, h⟩ | ⟨h, -⟩
  · obtain ⟨hv, hnode⟩ := h.tidy.document_of_lists hl
    cases hn : ledger name with
    | some c => exact ⟨c, rfl⟩
    | none => exact absurd (h.unlisted name hv hn) hnode
  · exact absurd hl h.not_lists

/-- A listed preset that is removed is not in the ledger any more. -/
theorem remove (hs : s.settings.Plain) (h : s.Agrees ledger d) (hl : s.Lists d name) :
    s.Agrees (ledger.set name none) ((s.remove name).run d).disk := by
  obtain ⟨c, hn⟩ := h.stored_of_lists hl
  obtain ⟨rfl, dir, g, hc, hg⟩ := h.stored hn
  have hw := hg.writable
  have hstem : ledger (Fragment.sdfStem c.name) = none :=
    hc.apart c.name (by rw [hn]; simp)
  have hbase : ∀ base, c.name = Fragment.sdfStem base → ledger base = none := by
    intro base heq
    cases hb : ledger base with
    | none => rfl
    | some c' =>
      have := hc.apart base (by rw [hb]; simp)
      rw [← heq, hn] at this
      exact absurd this (by simp)
  obtain ⟨removed, rest, hfiles, hp, -, hrest⟩ := remove_spec hs.slashFree hg.valid hc.tidy.root
  have hall : removed = s.files c.name := by
    cases rest with
    | nil => rw [hfiles, List.append_nil]
    | cons f rest =>
      have hf : f ∈ s.files c.name := by
        rw [hfiles]
        exact List.mem_append_right _ List.mem_cons_self
      exact absurd (hw.of_mem_files hf) (hrest f rfl)
  rw [hall] at hp
  have hmem : ∀ f (k : Option ByteArray),
      List.lookup f ((s.files c.name).map fun f => (f, none)) = some k → f ∈ s.files c.name := by
    intro f k hl
    rw [lookup_map_removed] at hl
    by_cases hf : f ∈ s.files c.name
    · exact hf
    · rw [if_neg hf] at hl
      exact absurd hl (by simp)
  have htidy := hc.tidy.patched hp fun f k hl =>
    ⟨isEntryName_of_mem_files hs.slashFree hg.valid f (hmem f k hl),
      (hw.of_mem_files (hmem f k hl)).fits⟩
  refine .inl ⟨dir, hc.change hs hp htidy hmem _ hstem hbase ?_ ?_⟩
  · intro c' hc'
    exact absurd hc' (by simp)
  · intro _ _
    exact hp.entry_of_removed (by rw [lookup_map_removed, if_pos (s.documentFile_mem_files c.name)])

/-- A publication, whatever its result. -/
theorem publish (hs : s.settings.Plain) (h : s.Agrees ledger d) (c : Config) (strict : Bool) :
    s.Agrees
      (if ((s.publish c strict).run d).result.isOk then ledger.set c.name (some c) else ledger)
      ((s.publish c strict).run d).disk := by
  rcases (s.publish c strict).yields_or_fails d with ⟨p, hy⟩ | ⟨e, hf⟩
  · rw [hy.1]
    exact h.publish_yields hs hy
  · rw [hf.1]
    exact h.publish_fails hs hf

end Agrees

end Store

/-! ## Runs -/

theorem isOk_map {α β : Type} (r : Except PresetError α) (f : α → β) :
    (r.map f).isOk = r.isOk := by
  cases r <;> rfl

namespace Store.Agrees

variable {s : Store} {d : Disk} {ledger : Ledger}

/-- A request to the store, whatever its result. -/
theorem serve_store (hs : s.settings.Plain) (h : s.Agrees ledger d) (t : Session)
    (ht : t.store = s) (r : Store.Request) (hr : s.Permits d (.store r)) :
    s.Agrees (ledger.after t.config (t.serve d (.store r)).2.result.isOk (.store r))
      (t.serve d (.store r)).2.disk := by
  subst ht
  have hdisk : (t.serve d (.store r)).2.disk = ((t.store.answer r).run d).disk := rfl
  have hok : (t.serve d (.store r)).2.result.isOk = ((t.store.answer r).run d).result.isOk :=
    isOk_map _ _
  have hreads : (t.store.answer r).ReadsOnly → (t.serve d (.store r)).2.disk = d :=
    fun hread => hread d
  cases r with
  | paths name =>
    rw [hreads ((readsOnly_of _).bind fun _ => readsOnly_pure _)]
    exact h
  | load name =>
    rw [hreads ((t.store.readsOnly_load name).bind fun _ => readsOnly_pure _)]
    exact h
  | tryLoad name =>
    rw [hreads ((t.store.readsOnly_tryLoad name).bind fun _ => readsOnly_pure _)]
    exact h
  | readDocument name =>
    rw [hreads ((t.store.readsOnly_readDocument name).bind fun _ => readsOnly_pure _)]
    exact h
  | list =>
    rw [hreads (t.store.readsOnly_list.bind fun _ => readsOnly_pure _)]
    exact h
  | save c => exact hr.elim
  | writeFragments name driver sdf => exact hr.elim
  | publish c strict =>
    rw [hdisk, hok, Store.answer, disk_bind_pure, result_bind_pure, isOk_map]
    exact h.publish hs c strict
  | regenerate name strict =>
    rw [hdisk, Store.answer, disk_bind_pure]
    exact h.regenerate hs name strict
  | remove name =>
    rw [hdisk, Store.answer, disk_bind_pure]
    exact h.remove hs hr

/-- A command to the session, whatever its result. -/
theorem serve_command (hs : s.settings.Plain) (h : s.Agrees ledger d) (t : Session)
    (ht : t.store = s) (c : Session.Command) :
    s.Agrees (ledger.after t.config (t.serve d (.command c)).2.result.isOk (.command c))
      (t.serve d (.command c)).2.disk := by
  subst ht
  have hdisk : (t.serve d (.command c)).2.disk = (((Session.perform c).action t).run d).disk :=
    t.disk_step c d
  rw [hdisk]
  cases c with
  | rename name =>
    rw [t.readsOnly_perform_rename name d]
    exact h
  | edit e =>
    rw [t.readsOnly_perform_edit e d]
    exact h
  | generate strict =>
    have hok : (t.serve d (.command (.generate strict))).2.result.isOk
        = ((t.store.publish t.config strict).run d).result.isOk := by
      show (Except.map _ (t.step (.generate strict) d).2.result).isOk = _
      rw [isOk_map, Session.step_generate]
      exact isOk_map _ _
    rw [Session.action_perform_generate, disk_bind_pure, hok]
    exact h.publish hs t.config strict

end Store.Agrees

/-- After any run the store and the ledger agree. -/
theorem Run.agrees {s : Store} (hs : s.settings.Plain) {d₀ d : Disk} {t : Session}
    {ledger : Ledger} (hvacant : s.Vacant d₀) (h : Run s d₀ t d ledger) :
    t.store = s ∧ s.Agrees ledger d := by
  induction h with
  | start => exact ⟨rfl, hvacant.agrees⟩
  | @step t d ledger r _ hr ih =>
    obtain ⟨ht, h⟩ := ih
    refine ⟨(t.store_serve d r).trans ht, ?_⟩
    cases r with
    | store r => exact h.serve_store hs t ht r hr
    | command c => exact h.serve_command hs t ht c
    | restart => exact h

/-- **A store is consistent after every run.**  Start on an empty disk, with a store at an ordinary
path and two plain extensions; publish, regenerate, rename, edit and generate in any order and with
any results, and remove what is listed.  Then the listed names are those in the ledger; each of
them is loaded as the ledger has it, and its three files hold the fragments and the document of
that configuration; and no name is listed together with the same name followed by `SDF`. -/
theorem Run.consistent (s : Store) (hroot : s.root.Ordinary) (hs : s.settings.Plain)
    (home : Place) (t : Session) (d : Disk) (ledger : Ledger)
    (h : Run s (Disk.empty home) t d ledger) :
    (∀ n, s.Lists d n ↔ ledger n ≠ none) ∧
    (∀ n c, ledger n = some c → c.name = n ∧ (s.load n).Yields d (some c) d ∧
      ∃ paths g, s.paths n = .ok paths ∧
        (∀ strict, Fragment.generate c s.settings strict = .ok g) ∧
        d.readFile paths.driver = .ok g.driver.toUTF8 ∧
        d.readFile paths.sdf = .ok g.sdf.toUTF8 ∧
        d.readFile paths.document = .ok (Document.ofConfig c).encode.toUTF8) ∧
    (∀ n, ¬ (s.Lists d n ∧ s.Lists d (n ++ "SDF"))) := by
  obtain ⟨-, h⟩ := Run.agrees hs (Store.vacant_empty hroot home) h
  have hlists : ∀ n, s.Lists d n ↔ ledger n ≠ none := by
    intro n
    constructor
    · intro hl
      obtain ⟨c, hn⟩ := h.stored_of_lists hl
      rw [hn]
      simp
    · intro hn
      obtain ⟨c, hn⟩ := Option.ne_none_iff_exists'.mp hn
      obtain ⟨rfl, dir, g, hc, hg⟩ := h.stored hn
      refine Store.lists_of_document hs.slashFree hroot.ne_empty hc.tidy.root hg.valid
        hg.document.replaceable ?_
      rw [hg.document.content]
      simp
  refine ⟨hlists, ?_, ?_⟩
  · intro n c hn
    obtain ⟨rfl, dir, g, -, hg⟩ := h.stored hn
    exact ⟨rfl, hg.load hs.slashFree, _, g, s.paths_of_isValid hg.valid, hg.generated,
      hg.driver_content hs.slashFree, hg.sdf_content hs.slashFree,
      hg.document_content hs.slashFree⟩
  · intro n hboth
    have hn := (hlists n).mp hboth.1
    obtain ⟨c, hn'⟩ := Option.ne_none_iff_exists'.mp hn
    obtain ⟨-, dir, g, hc, -⟩ := h.stored hn'
    exact (hlists (n ++ "SDF")).mp hboth.2 (hc.apart n hn)

/-- After `Foo` was published, the publication of `FooSDF` is refused; `Foo` is listed. -/
theorem Run.consistent_collision :
    ∃ t d ledger, Run ⟨⟨"shaders"⟩, default⟩ (Disk.empty ["scratch"]) t d ledger ∧
      Store.Lists ⟨⟨"shaders"⟩, default⟩ d "Foo" ∧
      ¬ Store.Lists ⟨⟨"shaders"⟩, default⟩ d "FooSDF" := by
  have hroot : (⟨"shaders"⟩ : Path).Ordinary :=
    Path.ordinary_of_isEntryName (by constructor <;> decide)
  have hrun := Run.step (.store (.publish ⟨"FooSDF", [], .box⟩ true))
    (Run.step (.store (.publish ⟨"Foo", [.boxFold], .box⟩ true))
      (Run.start : Run ⟨⟨"shaders"⟩, default⟩ (Disk.empty ["scratch"]) _ _ _) trivial) trivial
  obtain ⟨hlists, -, hapart⟩ := Run.consistent ⟨⟨"shaders"⟩, default⟩ hroot
    Settings.plain_default ["scratch"] _ _ _ hrun
  have hfoo := (hlists "Foo").mpr (by exact nofun)
  exact ⟨_, _, _, hrun, hfoo, fun hc => hapart "Foo" ⟨hfoo, hc⟩⟩

end FractalShader
