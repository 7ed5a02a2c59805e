import FractalShader.Proofs.Disk.Making
import FractalShader.Proofs.Disk.Patch
import FractalShader.Proofs.Store.Files
import FractalShader.Proofs.Store.Refusal

/-!
# What the operations of a store do

An operation that changes files first makes the directory of the store and then
patches it.  These are the patches, for every disk.

* `rooted` — the disk on which the directory of the store has been made, as far
  as that is possible;
* `writeFragments_yields`, `save_yields`, `publish_yields`, `regenerate_yields` —
  what an operation that succeeds has done;
* `checkCollision_yields` — what is known of the documents of other names when
  fragments are written.
-/

namespace FractalShader.Store

open FractalShader.Action FractalShader.Disk

/-! ## Single entries -/

section Entry

variable {d d' : Disk} {p : Path} {dir : Place} {file : String}

/-- A removal succeeds exactly on an entry that can be replaced, and then there is none. -/
theorem removeIfPresent_cases (hd : d.directoryAt p = .ok dir) (hf : IsEntryName file) :
    (d.Replaceable p dir file ∧ ∃ d₁, (removeIfPresent (p.join file)).Yields d
        (d.node? (file :: dir)).isSome d₁ ∧ d.Patched dir [(file, none)] d₁) ∨
      (¬ d.Replaceable p dir file ∧ ∃ e, (removeIfPresent (p.join file)).Fails d e d) := by
  have hremove := removeFile_join hd hf
  cases hu : p.entryFault? file with
  | some e =>
    have hne : e ≠ .notFound := fun hc => Path.entryFault?_ne_notFound hf (hc ▸ hu)
    rw [hu] at hremove
    refine .inr ⟨?_, .io (p.join file).text e, ?_⟩
    · intro hr
      have := hr.fits
      rw [hu] at this
      exact absurd this (by simp)
    · rw [removeIfPresent, fails_request]
      refine ⟨e, ?_, rfl⟩
      rw [hremove]
      cases e <;> simp_all
  | none =>
    rw [hu] at hremove
    cases hn : d.node? (file :: dir) with
    | none =>
      rw [hn] at hremove
      refine .inl ⟨⟨hu, by rw [hn]; simp⟩, d, ?_, patched_absent hn⟩
      rw [removeIfPresent, yields_request, hremove]
      rfl
    | some x =>
      rw [hn] at hremove
      cases x with
      | directory =>
        refine .inr ⟨fun hr => hr.not_directory hn, .io (p.join file).text .isADirectory, ?_⟩
        rw [removeIfPresent, fails_request, hremove]
        exact ⟨.isADirectory, rfl, rfl⟩
      | file content =>
        have hnot : d.node? (file :: dir) ≠ some .directory := by rw [hn]; simp
        refine .inl ⟨⟨hu, hnot⟩, _, ?_, patched_eraseFile hnot⟩
        rw [removeIfPresent, yields_request, hremove]
        rfl

/-- A text is written exactly to an entry that can be replaced. -/
theorem writeText_cases (hd : d.directoryAt p = .ok dir) (hf : IsEntryName file) (text : String) :
    (d.Replaceable p dir file ∧ ∃ d₁, (writeText (p.join file) text).Yields d () d₁ ∧
        d.Patched dir [(file, some text.toUTF8)] d₁) ∨
      (¬ d.Replaceable p dir file ∧ ∃ e, (writeText (p.join file) text).Fails d e d) := by
  have hwrite := writeFile_join hd hf text.toUTF8
  cases hu : p.entryFault? file with
  | some e =>
    rw [hu] at hwrite
    refine .inr ⟨?_, .io (p.join file).text e, ?_⟩
    · intro hr
      have := hr.fits
      rw [hu] at this
      exact absurd this (by simp)
    · rw [writeText, fails_request, whole, hwrite]
      exact ⟨e, rfl, rfl⟩
  | none =>
    rw [hu] at hwrite
    by_cases hn : d.node? (file :: dir) = some .directory
    · simp only [hn, if_true] at hwrite
      refine .inr ⟨fun hr => hr.not_directory hn, .io (p.join file).text .isADirectory, ?_⟩
      rw [writeText, fails_request, whole, hwrite]
      exact ⟨.isADirectory, rfl, rfl⟩
    · simp only [hn, if_false] at hwrite
      refine .inl ⟨⟨hu, hn⟩, _, ?_, patched_put (node?_directoryAt hd) hn _⟩
      rw [writeText, yields_request, whole, hwrite]

theorem removeIfPresent_yields (hd : d.directoryAt p = .ok dir) (hf : IsEntryName file) {b : Bool}
    (h : (removeIfPresent (p.join file)).Yields d b d') :
    d.Replaceable p dir file ∧ d.Patched dir [(file, none)] d' := by
  rcases removeIfPresent_cases hd hf with ⟨hr, d₁, hy, hp⟩ | ⟨-, e, hfail⟩
  · obtain ⟨-, rfl⟩ := Yields.unique h hy
    exact ⟨hr, hp⟩
  · exact (h.not_fails hfail).elim

theorem removeIfPresent_fails (hd : d.directoryAt p = .ok dir) (hf : IsEntryName file)
    {e : PresetError} (h : (removeIfPresent (p.join file)).Fails d e d') :
    ¬ d.Replaceable p dir file ∧ d' = d := by
  rcases removeIfPresent_cases hd hf with ⟨-, d₁, hy, -⟩ | ⟨hr, e', hfail⟩
  · exact (hy.not_fails h).elim
  · exact ⟨hr, h.2.symm.trans hfail.2⟩

theorem writeText_yields (hd : d.directoryAt p = .ok dir) (hf : IsEntryName file) {text : String}
    {u : Unit} (h : (writeText (p.join file) text).Yields d u d') :
    d.Replaceable p dir file ∧ d.Patched dir [(file, some text.toUTF8)] d' := by
  rcases writeText_cases hd hf text with ⟨hr, d₁, hy, hp⟩ | ⟨-, e, hfail⟩
  · obtain ⟨-, rfl⟩ := Yields.unique h hy
    exact ⟨hr, hp⟩
  · exact (h.not_fails hfail).elim

theorem writeText_fails (hd : d.directoryAt p = .ok dir) (hf : IsEntryName file) {text : String}
    {e : PresetError} (h : (writeText (p.join file) text).Fails d e d') :
    ¬ d.Replaceable p dir file ∧ d' = d := by
  rcases writeText_cases hd hf text with ⟨-, d₁, hy, -⟩ | ⟨hr, e', hfail⟩
  · exact (hy.not_fails h).elim
  · exact ⟨hr, h.2.symm.trans hfail.2⟩

/-- What cannot be written changes nothing, whatever the path. -/
theorem disk_of_writeText_fails {text : String} {e : PresetError}
    (h : (writeText p text).Fails d e d') : d' = d := by
  rw [writeText, fails_request, whole] at h
  obtain ⟨cause, h, -⟩ := h
  split at h
  · simp at h
  · exact (Prod.mk.inj h).1.symm

end Entry

/-! ## The directory of the store -/

/-- The disk on which the directory of the store has been made, as far as that is possible. -/
def rooted (s : Store) (d : Disk) : Disk := (d.makeDirectories s.root).1

variable {s : Store} {d d' : Disk} {dir : Place} {name : String}

theorem disk_ensureRoot (s : Store) (d : Disk) : (s.ensureRoot.run d).disk = s.rooted d := rfl

theorem made_rooted (s : Store) (d : Disk) : d.Made s.root.ancestors (s.rooted d) :=
  made_makeDirectories d s.root

theorem rooted_of_directoryAt (h : d.directoryAt s.root = .ok dir) : s.rooted d = d :=
  (makeDirectories_of_directoryAt h).1

theorem ensureRoot_yields {u : Unit} (h : s.ensureRoot.Yields d u d') :
    d' = s.rooted d ∧ ∃ dir, d'.directoryAt s.root = .ok dir := by
  rw [ensureRoot, yields_request] at h
  refine ⟨by rw [rooted, h], directoryAt_of_makeDirectories h⟩

theorem ensureRoot_fails {e : PresetError} (h : s.ensureRoot.Fails d e d') : d' = s.rooted d := by
  rw [ensureRoot, fails_request] at h
  obtain ⟨cause, h, -⟩ := h
  rw [rooted, h]

/-- Where an entry can be replaced, the directory need not be made. -/
theorem ensureRoot_of_replaceable {file : String} (hd : d.directoryAt s.root = .ok dir)
    (hf : IsEntryName file) (hr : d.Replaceable s.root dir file) :
    s.ensureRoot.Yields d () d := by
  obtain ⟨hdisk, hresult⟩ := makeDirectories_of_directoryAt hd
  have husable : s.root.fault? = none ∨ s.root.text = "" := by
    by_cases hne : s.root.text = ""
    · exact .inr hne
    · exact .inl (Path.fault?_of_entryFault? hf hne hr.fits)
  rw [ensureRoot, yields_request]
  exact Prod.ext hdisk (hresult husable)

/-! ## Documents of other names -/

theorem hasDocument_yields {b : Bool} (h : (s.hasDocument name).Yields d b d') :
    PresetName.IsValid name ∧ d.exists? (s.documentPath name) = .ok b ∧ d' = d := by
  rw [hasDocument, yields_bind] at h
  obtain ⟨paths, d₁, hpaths, hask⟩ := h
  rw [yields_of, paths_eq_ok_iff] at hpaths
  obtain ⟨⟨hv, rfl⟩, rfl⟩ := hpaths
  rw [yields_ask] at hask
  exact ⟨hv, hask⟩

/-- A document that is looked for in a directory is an entry of it. -/
theorem hasDocument_yields_of_directoryAt (hs : s.settings.SlashFree)
    (hd : d.directoryAt s.root = .ok dir) {b : Bool} (h : (s.hasDocument name).Yields d b d') :
    b = (d.node? (s.documentFile name :: dir)).isSome := by
  obtain ⟨hv, hask, -⟩ := hasDocument_yields h
  exact ((exists?_join_eq_ok_iff hd (isEntryName_documentFile hs hv)).mp hask).2

/-- When a name collides with no other, neither the preset whose distance fragment is its driver
nor the one whose driver is its distance fragment has a document. -/
theorem checkCollision_yields {u : Unit} (h : (s.checkCollision name).Yields d u d') :
    (∀ base, name = Fragment.sdfStem base → PresetName.IsValid base →
        (s.hasDocument base).Yields d false d) ∧
      (s.hasDocument (Fragment.sdfStem name)).Yields d false d := by
  rw [checkCollision_eq, refuseBeside_yields_iff] at h
  constructor
  · intro base hname hbase
    exact h.2 (base, .takesFragment) (mem_partners.mpr (.inl ⟨hname, hbase, rfl⟩))
  · exact h.2 (_, .takesDriver) (mem_partners.mpr (.inr ⟨rfl, rfl⟩))

/-! ## Operations that succeed -/

/-- The files of the preset `name` in the directory `dir` can be written and removed. -/
structure Writable (s : Store) (d : Disk) (dir : Place) (name : String) : Prop where
  driver : d.Replaceable s.root dir (s.driverFile name)
  sdf : d.Replaceable s.root dir (s.sdfFile name)
  document : d.Replaceable s.root dir (s.documentFile name)

/-- The disk `d'` is `d` after the fragments of `name` were replaced in the directory `dir` of the
store. -/
structure FragmentsWritten (s : Store) (d : Disk) (dir : Place) (name driver sdf : String)
    (d' : Disk) : Prop where
  valid : PresetName.IsValid name
  separate : (s.checkCollision name).Yields d () d
  root : (s.rooted d).directoryAt s.root = .ok dir
  driverReplaceable : (s.rooted d).Replaceable s.root dir (s.driverFile name)
  sdfReplaceable : (s.rooted d).Replaceable s.root dir (s.sdfFile name)
  patched : (s.rooted d).Patched dir
    [(s.sdfFile name, some sdf.toUTF8), (s.driverFile name, some driver.toUTF8)] d'

/-- In a directory that is there already nothing else happens. -/
theorem FragmentsWritten.of_directoryAt {dir' : Place} {driver sdf : String}
    (h : s.FragmentsWritten d dir' name driver sdf d') (hd : d.directoryAt s.root = .ok dir) :
    dir = dir' ∧ d.Replaceable s.root dir (s.driverFile name) ∧
      d.Replaceable s.root dir (s.sdfFile name) ∧ d.Patched dir
        [(s.sdfFile name, some sdf.toUTF8), (s.driverFile name, some driver.toUTF8)] d' := by
  obtain ⟨-, -, hroot, hdriver, hsdf, hpatched⟩ := h
  rw [rooted_of_directoryAt hd] at hroot hdriver hsdf hpatched
  obtain rfl := Except.ok.inj (hd.symm.trans hroot)
  exact ⟨rfl, hdriver, hsdf, hpatched⟩

theorem writeFragments_yields (hs : s.settings.SlashFree) {driver sdf : String}
    {p : ArtifactPaths} (h : (s.writeFragments name driver sdf).Yields d p d') :
    p = s.artifacts name ∧ ∃ dir, s.FragmentsWritten d dir name driver sdf d' := by
  rw [writeFragments, yields_bind] at h
  obtain ⟨paths, d₀, hpaths, h⟩ := h
  rw [yields_of, paths_eq_ok_iff] at hpaths
  obtain ⟨⟨hv, rfl⟩, rfl⟩ := hpaths
  rw [yields_bind] at h
  obtain ⟨u, d₀', hcheck, h⟩ := h
  obtain rfl := (s.readsOnly_checkCollision name).disk_eq hcheck
  rw [yields_bind] at h
  obtain ⟨_, d₁, hroot, h⟩ := h
  obtain ⟨rfl, dir, hd⟩ := ensureRoot_yields hroot
  have hdriver := isEntryName_driverFile hs hv
  have hsdf := isEntryName_sdfFile hs hv
  rw [yields_bind] at h
  obtain ⟨_, d₂, h₁, h⟩ := h
  obtain ⟨hr₁, hp₁⟩ := removeIfPresent_yields hd hdriver h₁
  rw [yields_bind] at h
  obtain ⟨_, d₃, h₂, h⟩ := h
  obtain ⟨hr₂, hp₂⟩ := removeIfPresent_yields (hp₁.directoryAt hd) hsdf h₂
  have hp₁₂ := hp₁.trans hp₂
  rw [yields_bind] at h
  obtain ⟨_, d₄, h₃, h⟩ := h
  obtain ⟨-, hp₃⟩ := writeText_yields (hp₁₂.directoryAt hd) hdriver h₃
  have hp₁₂₃ := hp₁₂.trans hp₃
  rw [yields_bind] at h
  obtain ⟨_, d₅, h₄, h⟩ := h
  obtain ⟨-, hp₄⟩ := writeText_yields (hp₁₂₃.directoryAt hd) hsdf h₄
  have hall := hp₁₂₃.trans hp₄
  simp only [yields_bind, yields_emit, yields_pure] at h
  obtain ⟨_, _, rfl, rfl, rfl⟩ := h
  refine ⟨rfl, dir, hv, hcheck, hd, hr₁, hp₁.replaceable_iff.mp hr₂, hall.congr ?_⟩
  intro f
  simp only [List.cons_append, List.nil_append, lookup_cons_patch, List.lookup_nil]
  by_cases hf₁ : f = s.sdfFile name
  · simp only [hf₁, if_true]
  · by_cases hf₂ : f = s.driverFile name
    · simp only [hf₂, if_true]
    · simp only [hf₁, hf₂, if_false]

theorem save_yields (hs : s.settings.SlashFree) {c : Config} {p : Path}
    (h : (s.save c).Yields d p d') :
    PresetName.IsValid c.name ∧ c.hasUnknown = false ∧ p = s.documentPath c.name ∧
      ∃ dir, (s.rooted d).directoryAt s.root = .ok dir ∧
        (s.rooted d).Replaceable s.root dir (s.documentFile c.name) ∧
        (s.rooted d).Patched dir
          [(s.documentFile c.name, some (Document.ofConfig c).encode.toUTF8)] d' := by
  rw [save, yields_bind] at h
  obtain ⟨paths, d₀, hpaths, h⟩ := h
  rw [yields_of, paths_eq_ok_iff] at hpaths
  obtain ⟨⟨hv, rfl⟩, rfl⟩ := hpaths
  cases hknown : c.hasUnknown with
  | true =>
    simp only [hknown, if_true, yields_bind] at h
    obtain ⟨_, _, hr, -⟩ := h
    exact absurd hr yields_refuse
  | false =>
    simp only [hknown, Bool.false_eq_true, if_false] at h
    rw [yields_bind] at h
    obtain ⟨_, d₁, hroot, h⟩ := h
    obtain ⟨rfl, dir, hd⟩ := ensureRoot_yields hroot
    rw [yields_bind] at h
    obtain ⟨_, d₂, hwrite, h⟩ := h
    obtain ⟨hr, hp⟩ := writeText_yields hd (isEntryName_documentFile hs hv) hwrite
    simp only [yields_bind, yields_emit, yields_pure] at h
    obtain ⟨_, _, rfl, rfl, rfl⟩ := h
    exact ⟨hv, rfl, rfl, dir, hd, hr, hp⟩

theorem generate_yields {c : Config} {strict : Bool} {g : Generated}
    (h : (s.generate c strict).Yields d g d') :
    Fragment.generate c s.settings strict = .ok g ∧ d' = d := by
  simp only [generate, yields_bind, yields_emit, yields_of, yields_emitAll, yields_pure] at h
  obtain ⟨_, _, rfl, g', _, ⟨hg, rfl⟩, _, _, rfl, rfl, rfl⟩ := h
  exact ⟨hg, rfl⟩

theorem generate_of_ok {c : Config} {strict : Bool} {g : Generated}
    (hg : Fragment.generate c s.settings strict = .ok g) : (s.generate c strict).Yields d g d := by
  simp [generate, yields_bind, hg]

/-- The disk `d'` is `d` after `c` was published with the fragments `g` in the directory `dir` of
the store. -/
structure PresetWritten (s : Store) (d : Disk) (dir : Place) (c : Config) (g : Generated)
    (d' : Disk) : Prop where
  valid : PresetName.IsValid c.name
  known : c.hasUnknown = false
  separate : (s.checkCollision c.name).Yields d () d
  root : (s.rooted d).directoryAt s.root = .ok dir
  writable : s.Writable (s.rooted d) dir c.name
  patched : (s.rooted d).Patched dir
    [(s.documentFile c.name, some (Document.ofConfig c).encode.toUTF8),
      (s.sdfFile c.name, some g.sdf.toUTF8), (s.driverFile c.name, some g.driver.toUTF8)] d'

theorem PresetWritten.of_directoryAt {dir' : Place} {c : Config} {g : Generated}
    (h : s.PresetWritten d dir' c g d') (hd : d.directoryAt s.root = .ok dir) :
    dir = dir' ∧ s.Writable d dir c.name ∧ d.Patched dir
      [(s.documentFile c.name, some (Document.ofConfig c).encode.toUTF8),
        (s.sdfFile c.name, some g.sdf.toUTF8), (s.driverFile c.name, some g.driver.toUTF8)] d' := by
  obtain ⟨-, -, -, hroot, hwritable, hpatched⟩ := h
  rw [rooted_of_directoryAt hd] at hroot hwritable hpatched
  obtain rfl := Except.ok.inj (hd.symm.trans hroot)
  exact ⟨rfl, hwritable, hpatched⟩

theorem publish_yields (hs : s.settings.SlashFree) {c : Config} {strict : Bool} {p : Published}
    (h : (s.publish c strict).Yields d p d') :
    p.paths = s.artifacts c.name ∧ Fragment.generate c s.settings strict = .ok p.generated ∧
      ∃ dir, s.PresetWritten d dir c p.generated d' := by
  unfold publish at h
  cases hknown : c.hasUnknown with
  | true =>
    simp only [hknown, if_true, yields_bind] at h
    obtain ⟨_, _, hr, -⟩ := h
    exact absurd hr yields_refuse
  | false =>
    simp only [hknown, Bool.false_eq_true, if_false] at h
    rw [yields_bind] at h
    obtain ⟨g, d₀, hgenerate, h⟩ := h
    obtain ⟨hg, rfl⟩ := generate_yields hgenerate
    rw [yields_bind] at h
    obtain ⟨paths, d₁, hwrite, h⟩ := h
    obtain ⟨rfl, dir, hw⟩ := writeFragments_yields hs hwrite
    rw [yields_bind] at h
    obtain ⟨q, d₂, hsave, h⟩ := h
    have hd₁ : d₁.directoryAt s.root = .ok dir := hw.patched.directoryAt hw.root
    obtain ⟨-, -, -, dir', hd', hr, hp⟩ := save_yields hs hsave
    rw [rooted_of_directoryAt hd₁] at hd' hr hp
    obtain rfl := Except.ok.inj (hd₁.symm.trans hd')
    simp only [yields_bind, yields_emit, yields_pure] at h
    obtain ⟨_, _, rfl, rfl, rfl⟩ := h
    have hwritable : s.Writable (s.rooted d₀) dir c.name :=
      ⟨hw.driverReplaceable, hw.sdfReplaceable, hw.patched.replaceable_iff.mp hr⟩
    exact ⟨rfl, hg, dir, hw.valid, hknown, hw.separate, hw.root, hwritable, hw.patched.trans hp⟩

theorem regenerate_yields (hs : s.settings.SlashFree) {strict : Bool} {p : Published}
    (h : (s.regenerate name strict).Yields d p d') :
    ∃ c dir, (s.readDocument name).Yields d c d ∧
      Fragment.generate c s.settings strict = .ok p.generated ∧
      s.FragmentsWritten d dir name p.generated.driver p.generated.sdf d' := by
  rw [regenerate, yields_bind] at h
  obtain ⟨c, d₀, hread, h⟩ := h
  obtain rfl := (s.readsOnly_readDocument name).disk_eq hread
  rw [yields_bind] at h
  obtain ⟨g, d₁, hgenerate, h⟩ := h
  obtain ⟨hg, rfl⟩ := generate_yields hgenerate
  rw [yields_bind] at h
  obtain ⟨paths, d₂, hwrite, h⟩ := h
  obtain ⟨rfl, dir, hw⟩ := writeFragments_yields hs hwrite
  simp only [yields_bind, yields_emit, yields_pure] at h
  obtain ⟨_, _, rfl, rfl, rfl⟩ := h
  exact ⟨c, dir, hread, hg, hw⟩

end FractalShader.Store
