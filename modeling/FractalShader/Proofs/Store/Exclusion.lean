import FractalShader.Proofs.Fragment.Lenient
import FractalShader.Proofs.Store.Listing
import Mathlib.Data.List.Induction

/-!
# At most one of two names that share a fragment

The driver of `nSDF` is the distance fragment of `n`, so the two should not both
be presets.  Fragments are written only after a check for this, but a document
that is saved on its own is not checked, and a document is what makes a preset
listed.  So the two names exclude each other exactly as long as no document is
saved beside the other preset; as long as they do, no preset is refused for its
name when it is regenerated.

* `Exclusive` — no two such names are listed;
* `Exclusive.added` — one more name that is listed ends it exactly when it collides;
* `Exclusive.not_refused` — where it holds, presets can be regenerated;
* `step_serve` — what any one request does to it;
* `exclusive_throughout_iff` — the whole run;
* `save_beside_preset` — a run on which exclusion is lost.
-/

namespace FractalShader

open FractalShader.Action FractalShader.Disk

/-! ## Names that can be used -/

/-- A name that can be used can be used with `SDF` after it. -/
theorem PresetName.IsValid.sdfStem {name : String} (h : PresetName.IsValid name) :
    PresetName.IsValid (Fragment.sdfStem name) := by
  have hlist : (Fragment.sdfStem name).toList = name.toList ++ ['S', 'D', 'F'] := by
    simp [Fragment.sdfStem]
  have hlong : ∀ short : String, short.toList.length ≤ 2 → Fragment.sdfStem name ≠ short := by
    intro short hshort heq
    rw [← heq, hlist] at hshort
    simp at hshort
  have hsame : ∀ x, x ∉ ['S', 'D', 'F'] → (x ∈ (Fragment.sdfStem name).toList ↔ x ∈ name.toList) := by
    intro x hx
    rw [hlist, List.mem_append, or_iff_left hx]
  have hpadded : isPadded name.toList = false → isPadded (Fragment.sdfStem name).toList = false := by
    intro hname
    obtain ⟨c, cs, hcs⟩ := List.exists_cons_of_ne_nil
      fun hc => h.ne_empty (String.toList_inj.mp hc)
    rw [hcs, isPadded, Bool.or_eq_false_iff] at hname
    rw [hlist, hcs, isPadded, Bool.or_eq_false_iff]
    refine ⟨hname.1, ?_⟩
    rw [List.getLast?_append]
    rfl
  unfold IsValid fault? at h ⊢
  rw [if_neg (hlong "" (by decide)),
    if_neg (not_or.mpr ⟨hlong "." (by decide), hlong ".." (by decide)⟩)]
  simp only [hsame '/' (by decide), hsame '\\' (by decide), hsame '\x00' (by decide)]
  grind

/-! ## Sequences of requests -/

/-- The session and the disk after a sequence of requests. -/
def Session.serveAll (t : Session) (d : Disk) : List Session.Request → Session × Disk
  | [] => (t, d)
  | r :: rs => (t.serve d r).1.serveAll (t.serve d r).2.disk rs

theorem Session.serveAll_concat (t : Session) (d : Disk) (rs : List Session.Request)
    (r : Session.Request) : t.serveAll d (rs ++ [r]) =
      (((t.serveAll d rs).1.serve (t.serveAll d rs).2 r).1,
        ((t.serveAll d rs).1.serve (t.serveAll d rs).2 r).2.disk) := by
  induction rs generalizing t d with
  | nil => rfl
  | cons q rs ih => exact ih _ _

theorem Session.store_serveAll (t : Session) (d : Disk) (rs : List Session.Request) :
    (t.serveAll d rs).1.store = t.store := by
  induction rs generalizing t d with
  | nil => rfl
  | cons r rs ih => exact (ih _ _).trans (t.store_serve d r)

namespace Store

variable {s : Store} {d d' d₀ : Disk} {dir : Place} {name m : String}

/-! ## Refusals of a name -/

/-- A preset whose name can be used is not refused for its name when its document is read. -/
theorem readDocument_not_refused {fault : NameFault} (hv : PresetName.IsValid name) :
    ¬ (s.readDocument name).Fails d (.invalidName m fault) d' := by
  intro h
  rw [readDocument, s.paths_of_isValid hv, fails_bind] at h
  rcases h with h | ⟨paths, d₁, -, h⟩
  · exact absurd (fails_of.mp h).1 (by simp)
  rw [fails_bind] at h
  rcases h with h | ⟨r, d₂, -, h⟩
  · exact absurd h fails_look
  split at h
  · simp [malformed, fails_bind] at h
  · simp [fails_refuse] at h
  · split at h
    · simp [malformed, fails_bind] at h
    · simp [fails_bind] at h

/-- Fragments that are refused for a name that can be used were refused by the check for
collisions. -/
theorem writeFragments_refused {driver sdf : String} {fault : NameFault}
    (hv : PresetName.IsValid name)
    (h : (s.writeFragments name driver sdf).Fails d (.invalidName m fault) d') :
    (s.checkCollision name).Fails d (.invalidName m fault) d' := by
  rw [writeFragments, s.paths_of_isValid hv, fails_bind] at h
  rcases h with h | ⟨paths, d₁, hpaths, h⟩
  · exact absurd (fails_of.mp h).1 (by simp)
  obtain ⟨-, rfl⟩ := yields_of.mp hpaths
  rw [fails_bind] at h
  rcases h with h | ⟨_, d₂, -, h⟩
  · exact h
  · -- what follows the check can be stopped by the disk alone
    exact (s.failsOnDisk_replacement name driver sdf paths _ _ _ h).elim

theorem hasDocument_not_refused {fault : NameFault} (hv : PresetName.IsValid name) :
    ¬ (s.hasDocument name).Fails d (.invalidName m fault) d' := by
  intro h
  rw [hasDocument, s.paths_of_isValid hv, fails_bind] at h
  rcases h with h | ⟨paths, d₁, -, h⟩
  · exact absurd (fails_of.mp h).1 (by simp)
  · simp [fails_ask] at h

/-- How the check for collisions can fail: there is a document of a preset with which a fragment
would be shared, and then the name is refused, or the disk cannot be asked for it. -/
theorem checkCollision_fails (hv : PresetName.IsValid name) {e : PresetError}
    (h : (s.checkCollision name).Fails d e d') :
    ∃ m, PresetName.IsValid m ∧ (name = Fragment.sdfStem m ∨ m = Fragment.sdfStem name) ∧
      ((s.hasDocument m).Yields d true d ∧ (∃ fault, e = .invalidName name fault) ∨
        (s.hasDocument m).Fails d e d) := by
  rw [checkCollision_eq] at h
  obtain ⟨⟨m, fault⟩, hm, hcases⟩ := refuseBeside_fails h
  have hfound : (s.hasDocument m).Yields d true d ∧ (∃ fault, e = .invalidName name fault) ∨
      (s.hasDocument m).Fails d e d :=
    hcases.imp_left fun hy => ⟨hy.1, fault, hy.2⟩
  rcases mem_partners.mp hm with ⟨hname, hbase, -⟩ | ⟨rfl, -⟩
  · exact ⟨m, hbase, .inl hname, hfound⟩
  · exact ⟨_, hv.sdfStem, .inr rfl, hfound⟩

/-- The check for collisions refuses a name that can be used only beside the document of another. -/
theorem checkCollision_refused {fault : NameFault} (hv : PresetName.IsValid name)
    (h : (s.checkCollision name).Fails d (.invalidName m fault) d') :
    (s.hasDocument (Fragment.sdfStem name)).Yields d true d ∨
      ∃ base, name = Fragment.sdfStem base ∧ (s.hasDocument base).Yields d true d := by
  obtain ⟨n, hn, hpartner, ⟨hy, -⟩ | hfail⟩ := checkCollision_fails hv h
  · rcases hpartner with hname | rfl
    · exact .inr ⟨n, hname, hy⟩
    · exact .inl hy
  · exact absurd hfail (hasDocument_not_refused hn)

/-- A preset that is refused for its name when it is regenerated was refused by the check for
collisions. -/
theorem regenerate_refused {strict : Bool} {fault : NameFault} (hv : PresetName.IsValid name)
    (h : (s.regenerate name strict).Fails d (.invalidName m fault) d') :
    (s.checkCollision name).Fails d (.invalidName m fault) d' := by
  rw [regenerate, fails_bind] at h
  rcases h with h | ⟨c, d₁, hread, h⟩
  · exact absurd h (readDocument_not_refused hv)
  obtain rfl := (s.readsOnly_readDocument name).disk_eq hread
  rw [fails_bind] at h
  rcases h with h | ⟨g, d₂, hgenerate, h⟩
  · simp only [generate, fails_bind, fails_emit, yields_emit, fails_of, fails_emitAll, fails_pure,
      yields_of, yields_emitAll, false_or, or_false, and_false, exists_false] at h
    obtain ⟨_, _, rfl, hg, -⟩ := h
    exact absurd (Fragment.generate_error hg) (by simp)
  obtain ⟨-, rfl⟩ := generate_yields hgenerate
  rw [fails_bind] at h
  rcases h with h | ⟨paths, d₃, -, h⟩
  · exact writeFragments_refused hv h
  · simp [fails_bind] at h

/-! ## Exclusion -/

/-- No preset is listed together with the one whose driver is its distance fragment. -/
def Exclusive (s : Store) (d : Disk) : Prop :=
  ∀ n, ¬ (s.Lists d n ∧ s.Lists d (Fragment.sdfStem n))

/-- A preset is listed with which `name` would share a fragment. -/
def Collides (s : Store) (d : Disk) (name : String) : Prop :=
  s.Lists d (Fragment.sdfStem name) ∨ ∃ base, name = Fragment.sdfStem base ∧ s.Lists d base

/-- The request saves a document, and does so beside a preset with which it collides. -/
def SavesBeside (s : Store) (d : Disk) : Session.Request → Prop
  | .store (.save c) => s.Collides d c.name ∧ ∃ p d', (s.save c).Yields d p d'
  | _ => False

theorem Vacant.exclusive (h : s.Vacant d) : s.Exclusive d := fun _ hboth => h.not_lists hboth.1

/-- Exclusion depends on what is listed; to list less cannot end it. -/
theorem Exclusive.mono (h : s.Exclusive d) (hl : ∀ n, s.Lists d' n → s.Lists d n) :
    s.Exclusive d' :=
  fun n hboth => h n ⟨hl n hboth.1, hl _ hboth.2⟩

/-- One more name that is listed ends exclusion exactly when it collides. -/
theorem Exclusive.added (h : s.Exclusive d)
    (hl : ∀ m, s.Lists d' m ↔ s.root.text ≠ "" ∧ m = name ∨ s.Lists d m) :
    s.Exclusive d' ↔ ¬ s.Collides d name := by
  constructor
  · intro h' hc
    have hname : ∀ m, s.Lists d m → s.Lists d' name := fun m hm =>
      (hl name).mpr (.inl ⟨hm.root_ne_empty, rfl⟩)
    rcases hc with hstem | ⟨base, rfl, hbase⟩
    · exact h' name ⟨hname _ hstem, (hl _).mpr (.inr hstem)⟩
    · exact h' base ⟨(hl _).mpr (.inr hbase), hname _ hbase⟩
  · rintro hc n ⟨hn, hstem⟩
    rcases (hl n).mp hn with ⟨-, rfl⟩ | hn
    · rcases (hl _).mp hstem with ⟨-, heq⟩ | hstem
      · exact sdfStem_ne n heq
      · exact hc (.inl hstem)
    · rcases (hl _).mp hstem with ⟨-, heq⟩ | hstem
      · exact hc (.inr ⟨n, heq.symm, hn⟩)
      · exact h n ⟨hn, hstem⟩

/-- A name that passes the check for collisions collides with no preset. -/
theorem Orderly.not_collides (hs : s.settings.SlashFree) (h : s.Orderly d)
    (hcheck : (s.checkCollision name).Yields d () d) : ¬ s.Collides d name := by
  have hunlisted : ∀ n, (s.hasDocument n).Yields d false d → ¬ s.Lists d n := by
    intro n hy hl
    obtain ⟨dir, hd⟩ := hl.directoryAt
    have hnode := ((h.lists_iff hs hd).mp hl).2.2
    rw [← Option.isSome_iff_ne_none, ← hasDocument_yields_of_directoryAt hs hd hy] at hnode
    exact absurd hnode (by simp)
  obtain ⟨hbase, hstem⟩ := checkCollision_yields hcheck
  rintro (hl | ⟨base, heq, hl⟩)
  · exact hunlisted _ hstem hl
  · obtain ⟨dir, hd⟩ := hl.directoryAt
    have hv := ((h.lists_iff hs hd).mp hl).2.1
    exact hunlisted base (hbase base heq hv) hl

/-! ## One operation -/

theorem documentFile_not_mem_fragments_of_plain (hs : s.settings.Plain) (m n : String) :
    s.documentFile m ∉ s.fragments n := by
  by_cases hne : m = n
  · rw [hne]
    exact s.documentFile_not_mem_fragments n
  · exact fun h => documentFile_not_mem_files hs hne (mem_files_of_mem_fragments h)

/-- Exclusion is kept by whatever touches fragments only. -/
theorem Exclusive.touches (hs : s.settings.Plain) (horderly : s.Orderly d) (h : s.Exclusive d)
    (ht : s.Touches (s.fragments name) d d') : s.Exclusive d' :=
  h.mono fun n => (horderly.lists_touches hs.slashFree ht
    (documentFile_not_mem_fragments_of_plain hs n name)).mp

/-- A publication that succeeds has passed the check, and one that fails has written no document. -/
theorem Exclusive.publish (hs : s.settings.Plain) (horderly : s.Orderly d) (h : s.Exclusive d)
    (c : Config) (strict : Bool) : s.Exclusive ((s.publish c strict).run d).disk := by
  have horderly' := horderly.touches (touches_publish hs.slashFree c strict d)
  rcases (s.publish c strict).yields_or_fails d with ⟨p, hy⟩ | ⟨e, hfail⟩
  · obtain ⟨-, -, dir, hw⟩ := publish_yields hs.slashFree hy
    have hlists : ∀ m, s.Lists ((s.publish c strict).run d).disk m ↔
        s.root.text ≠ "" ∧ m = c.name ∨ s.Lists d m := fun m =>
      horderly.lists_written hs horderly' hw.root hw.patched hw.valid
        (by rw [lookup_cons_patch, if_pos rfl])
        fun _ _ hl => (hw.writable.mem_files hs.slashFree hw.valid hl).1
    exact (h.added hlists).mpr (horderly.not_collides hs.slashFree hw.separate)
  · rcases publish_fails hs.slashFree hfail with heq | ⟨-, -, htouch⟩
    · rwa [heq]
    · exact h.touches hs horderly htouch

/-- Nothing checks a document that is saved on its own. -/
theorem Exclusive.save_iff (hs : s.settings.Plain) (horderly : s.Orderly d) (h : s.Exclusive d)
    (c : Config) : s.Exclusive ((s.save c).run d).disk ↔
      ¬ (s.Collides d c.name ∧ ∃ p d', (s.save c).Yields d p d') := by
  have horderly' := horderly.touches (touches_save hs.slashFree c d)
  rcases (s.save c).yields_or_fails d with ⟨p, hy⟩ | ⟨e, hfail⟩
  · obtain ⟨hv, -, -, dir, hd, -, hp⟩ := save_yields hs.slashFree hy
    have hlists : ∀ m, s.Lists ((s.save c).run d).disk m ↔
        s.root.text ≠ "" ∧ m = c.name ∨ s.Lists d m := by
      intro m
      refine horderly.lists_written hs horderly' hd hp hv List.lookup_cons_self ?_
      intro f k hl
      rw [(eq_of_lookup_singleton hl).1]
      exact s.documentFile_mem_files c.name
    rw [h.added hlists]
    exact not_congr ⟨fun hc => ⟨hc, p, _, hy⟩, And.left⟩
  · refine iff_of_true (h.mono fun n => ?_) ?_
    · exact (horderly.lists_touches hs.slashFree (touches_of_save_fails hfail)
        (by simp)).mp
    · rintro ⟨-, p, d', hy⟩
      exact hy.not_fails hfail

theorem Exclusive.remove (hs : s.settings.SlashFree) (horderly : s.Orderly d)
    (h : s.Exclusive d) (name : String) : s.Exclusive ((s.remove name).run d).disk :=
  h.mono fun _ => horderly.lists_of_remove hs

/-- **In a store where no two names exclude each other, presets can be regenerated**: none that is
listed is refused for its name. -/
theorem Exclusive.not_refused (hs : s.settings.SlashFree) (horderly : s.Orderly d)
    (h : s.Exclusive d) (hl : s.Lists d name) {strict : Bool} {fault : NameFault} :
    ¬ (s.regenerate name strict).Fails d (.invalidName m fault) d' := by
  intro hfail
  obtain ⟨dir, hd⟩ := hl.directoryAt
  obtain ⟨hroot, hv, -⟩ := (horderly.lists_iff hs hd).mp hl
  have hlists : ∀ n, (s.hasDocument n).Yields d true d → s.Lists d n := by
    intro n hy
    refine (horderly.lists_iff hs hd).mpr ⟨hroot, (hasDocument_yields hy).1, ?_⟩
    rw [← Option.isSome_iff_ne_none]
    exact (hasDocument_yields_of_directoryAt hs hd hy).symm
  rcases checkCollision_refused hv (regenerate_refused hv hfail) with hy | ⟨base, rfl, hy⟩
  · exact h name ⟨hl, hlists _ hy⟩
  · exact h base ⟨hlists _ hy, hl⟩

/-! ## Any request -/

/-- What one request to the store `s` does on the disk: it keeps the store orderly, and it ends
exclusion exactly when it saves a document beside a preset with which it collides. -/
def Step (s : Store) (d : Disk) (r : Session.Request) (d' : Disk) : Prop :=
  s.Orderly d' ∧ (s.Exclusive d → (s.Exclusive d' ↔ ¬ s.SavesBeside d r))

theorem step_self (horderly : s.Orderly d) {r : Session.Request} (hr : ¬ s.SavesBeside d r) :
    s.Step d r d :=
  ⟨horderly, fun h => iff_of_true h hr⟩

theorem step_publish (hs : s.settings.Plain) (horderly : s.Orderly d) {r : Session.Request}
    (hr : ¬ s.SavesBeside d r) (c : Config) (strict : Bool) :
    s.Step d r ((s.publish c strict).run d).disk :=
  ⟨horderly.touches (touches_publish hs.slashFree c strict d),
    fun h => iff_of_true (h.publish hs horderly c strict) hr⟩

theorem step_store (hs : s.settings.Plain) (horderly : s.Orderly d) (r : Store.Request) :
    s.Step d (.store r) ((s.answer r).run d).disk := by
  have hlook : (s.answer r).ReadsOnly → ¬ s.SavesBeside d (.store r) →
      s.Step d (.store r) ((s.answer r).run d).disk := by
    intro hread hr
    rw [hread d]
    exact step_self horderly hr
  cases r with
  | paths name => exact hlook ((readsOnly_of _).bind fun _ => readsOnly_pure _) id
  | load name => exact hlook ((s.readsOnly_load name).bind fun _ => readsOnly_pure _) id
  | tryLoad name => exact hlook ((s.readsOnly_tryLoad name).bind fun _ => readsOnly_pure _) id
  | readDocument name =>
    exact hlook ((s.readsOnly_readDocument name).bind fun _ => readsOnly_pure _) id
  | list => exact hlook (s.readsOnly_list.bind fun _ => readsOnly_pure _) id
  | save c =>
    rw [Store.answer, disk_bind_pure]
    exact ⟨horderly.touches (touches_save hs.slashFree c d), fun h => h.save_iff hs horderly c⟩
  | writeFragments name driver sdf =>
    rw [Store.answer, disk_bind_pure]
    have htouch := touches_writeFragments hs.slashFree name driver sdf d
    exact ⟨horderly.touches htouch, fun h => iff_of_true (h.touches hs horderly htouch) id⟩
  | publish c strict =>
    rw [Store.answer, disk_bind_pure]
    exact step_publish hs horderly id c strict
  | regenerate name strict =>
    rw [Store.answer, disk_bind_pure]
    have htouch := touches_regenerate hs.slashFree name strict d
    exact ⟨horderly.touches htouch, fun h => iff_of_true (h.touches hs horderly htouch) id⟩
  | remove name =>
    rw [Store.answer, disk_bind_pure]
    exact ⟨horderly.remove hs.slashFree name,
      fun h => iff_of_true (h.remove hs.slashFree horderly name) id⟩

theorem step_serve (hs : s.settings.Plain) (horderly : s.Orderly d) {t : Session}
    (ht : t.store = s) (r : Session.Request) : s.Step d r (t.serve d r).2.disk := by
  subst ht
  cases r with
  | store r => exact step_store hs horderly r
  | restart => exact step_self horderly id
  | command c =>
    show t.store.Step d (.command c) (t.step c d).2.disk
    rw [t.disk_step c d]
    cases c with
    | rename name =>
      rw [t.readsOnly_perform_rename name d]
      exact step_self horderly id
    | edit e =>
      rw [t.readsOnly_perform_edit e d]
      exact step_self horderly id
    | generate strict =>
      rw [Session.action_perform_generate, disk_bind_pure]
      exact step_publish hs horderly id t.config strict

/-! ## A whole run -/

/-- The disk after a session over the store `s`, opened on `d`, was asked the requests `rs`. -/
def diskAfter (s : Store) (d : Disk) (rs : List Session.Request) : Disk :=
  ((Session.start s).serveAll d rs).2

theorem diskAfter_concat (s : Store) (d : Disk) (rs : List Session.Request) (r : Session.Request) :
    s.diskAfter d (rs ++ [r]) =
      (((Session.start s).serveAll d rs).1.serve (s.diskAfter d rs) r).2.disk := by
  rw [diskAfter, Session.serveAll_concat]
  rfl

theorem step_diskAfter (hs : s.settings.Plain) {rs : List Session.Request}
    (horderly : s.Orderly (s.diskAfter d rs)) (r : Session.Request) :
    s.Step (s.diskAfter d rs) r (s.diskAfter d (rs ++ [r])) := by
  rw [diskAfter_concat]
  exact step_serve hs horderly (Session.store_serveAll _ d rs) r

theorem Orderly.diskAfter (hs : s.settings.Plain) (h : s.Orderly d) (rs : List Session.Request) :
    s.Orderly (s.diskAfter d rs) := by
  induction rs using List.reverseRecOn with
  | nil => exact h
  | append_singleton rs r ih => exact (step_diskAfter hs ih r).1

/-- **Two names that share a fragment exclude each other exactly as long as no document is saved
beside the other preset.**  Start with a store that holds nothing, and ask anything of it and of a
session over it: on every disk on the way there is no name listed with its `SDF` name, exactly when
none of the requests saved a document beside a preset with which it collides.  And on every disk
where that is so, no listed preset is refused for its name when it is regenerated. -/
theorem exclusive_throughout_iff (hs : s.settings.Plain) (hvacant : s.Vacant d₀)
    (rs : List Session.Request) :
    ((∀ front, front <+: rs → s.Exclusive (s.diskAfter d₀ front)) ↔
      ∀ front r, front ++ [r] <+: rs → ¬ s.SavesBeside (s.diskAfter d₀ front) r) ∧
    ∀ front, front <+: rs → s.Exclusive (s.diskAfter d₀ front) →
      ∀ n, s.Lists (s.diskAfter d₀ front) n → ∀ strict m fault d',
        ¬ (s.regenerate n strict).Fails (s.diskAfter d₀ front) (.invalidName m fault) d' := by
  have horderly := hvacant.orderly.diskAfter hs
  refine ⟨⟨?_, ?_⟩, ?_⟩
  · intro h front r hfront
    have hbefore := h front ((List.prefix_append front [r]).trans hfront)
    exact ((step_diskAfter hs (horderly front) r).2 hbefore).mp (h _ hfront)
  · intro h front
    induction front using List.reverseRecOn with
    | nil => exact fun _ => hvacant.exclusive
    | append_singleton front r ih =>
      intro hfront
      have hbefore := ih ((List.prefix_append front [r]).trans hfront)
      exact ((step_diskAfter hs (horderly front) r).2 hbefore).mpr (h front r hfront)
  · intro front _ h n hl strict m fault d'
    exact h.not_refused hs.slashFree (horderly front) hl

/-- The requests that publish `Foo` and then save a document for `name`. -/
def publishThenSave (name : String) : List Session.Request :=
  [.store (.publish ⟨"Foo", [.boxFold], .box⟩ true), .store (.save ⟨name, [], .sphere⟩)]

/-- The document of `Bar` is saved beside `Foo`: exclusion is kept, and `Bar`, which is listed, is
not refused for its name. -/
theorem exclusive_throughout_bar :
    ∃ d, d = diskAfter ⟨⟨"shaders"⟩, default⟩ (Disk.empty ["scratch"]) (publishThenSave "Bar") ∧
      Exclusive ⟨⟨"shaders"⟩, default⟩ d ∧ Lists ⟨⟨"shaders"⟩, default⟩ d "Bar" ∧
      ∀ strict m fault d', ¬ (regenerate ⟨⟨"shaders"⟩, default⟩ "Bar" strict).Fails d
        (.invalidName m fault) d' := by
  have hroot : (⟨"shaders"⟩ : Path).Ordinary :=
    Path.ordinary_of_isEntryName (by constructor <;> decide)
  have hlists : Lists ⟨⟨"shaders"⟩, default⟩ (diskAfter ⟨⟨"shaders"⟩, default⟩
      (Disk.empty ["scratch"]) (publishThenSave "Bar")) "Bar" :=
    lists_iff_entries.mpr ⟨_, rfl, "Bar_Conf.json", by decide, by decide⟩
  have hbase : dropSuffix? "Bar" "SDF" = none := by decide
  have hcollides : ¬ Collides ⟨⟨"shaders"⟩, default⟩ (diskAfter ⟨⟨"shaders"⟩, default⟩
      (Disk.empty ["scratch"]) [.store (.publish ⟨"Foo", [.boxFold], .box⟩ true)]) "Bar" := by
    rintro (hl | ⟨base, heq, -⟩)
    · obtain ⟨entries, hentries, hfile⟩ := lists_iff_entries.mp hl
      obtain rfl := Except.ok.inj hentries
      revert hfile
      decide
    · rw [dropSuffix?_eq_some_iff.mpr heq] at hbase
      exact absurd hbase (by simp)
  have hvacant : Vacant ⟨⟨"shaders"⟩, default⟩ (Disk.empty ["scratch"]) := vacant_empty hroot _
  obtain ⟨hiff, hrefused⟩ := exclusive_throughout_iff Settings.plain_default hvacant
    (publishThenSave "Bar")
  have hexclusive := hiff.mpr ?_ _ (List.prefix_refl _)
  · exact ⟨_, rfl, hexclusive, hlists, hrefused _ (List.prefix_refl _) hexclusive "Bar" hlists⟩
  · rintro front r ⟨rest, hrest⟩
    rcases front with _ | ⟨q, _ | ⟨q', front⟩⟩
    · cases (List.cons.inj hrest).1
      exact id
    · cases (List.cons.inj hrest).1
      cases (List.cons.inj (List.cons.inj hrest).2).1
      exact fun h => hcollides h.1
    · have hlen := congrArg List.length hrest
      simp [publishThenSave] at hlen

/-- **A run on which exclusion is lost.**  After `Foo` was published, a document is saved for
`FooSDF`; both are listed, and `Foo` cannot be regenerated any more. -/
theorem save_beside_preset :
    ∃ d, d = diskAfter ⟨⟨"shaders"⟩, default⟩ (Disk.empty ["scratch"]) (publishThenSave "FooSDF") ∧
      Lists ⟨⟨"shaders"⟩, default⟩ d "Foo" ∧ Lists ⟨⟨"shaders"⟩, default⟩ d "FooSDF" ∧
      (regenerate ⟨⟨"shaders"⟩, default⟩ "Foo" true).Fails d (.invalidName "Foo" .takesDriver) d := by
  refine ⟨_, rfl, ?_, ?_, ?_⟩
  · exact lists_iff_entries.mpr ⟨_, rfl, "Foo_Conf.json", by decide, by decide⟩
  · exact lists_iff_entries.mpr ⟨_, rfl, "FooSDF_Conf.json", by decide, by decide⟩
  · have hread : ∀ d : Disk, d.readText (documentPath ⟨⟨"shaders"⟩, default⟩ "Foo") =
          .ok (Document.encode ⟨[.boxFold], .box⟩) →
        (readDocument ⟨⟨"shaders"⟩, default⟩ "Foo").Yields d ⟨"Foo", [.boxFold], .box⟩ d :=
      fun d htext => readDocument_yields_iff.mpr
        ⟨by decide, ⟨_, _, htext, Document.decode_encode _, rfl⟩, rfl⟩
    refine fails_bind.mpr (.inr ⟨_, _, hread _ rfl, ?_⟩)
    refine fails_bind.mpr (.inr ⟨_, _, ⟨rfl, rfl⟩, ?_⟩)
    exact fails_bind.mpr (.inl ⟨rfl, rfl⟩)

end Store

end FractalShader
