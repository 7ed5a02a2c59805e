import FractalShader.Proofs.Store.Inventory
import FractalShader.Proofs.Store.Stored

/-!
# What a removal takes

A removal goes through the three files of a name, takes away those that are there
and counts them.  The files are different entries of one directory, so what is done
to one says nothing about the others: each is counted as it was before, and all
that was there besides them is there afterwards.

* `removeEach` — the loop (`remove_eq`); `Cleared` — what it has done to the disk so far, one
  file at a time (`cleared_of_removeIfPresent`, `Cleared.cons`, `removeEach_yields`);
* `Cleared.find_iff` — what every path leads to afterwards;
* `remove_exact` — these for the files of a name, and what the store answers about
  the name from then on;
* `stepsKeep_directory` — no request to a store deletes a directory.
-/

namespace FractalShader

open FractalShader.Action FractalShader.Disk

/-! ## Going through the files of a directory -/

namespace Disk

/-- How many of these paths lead to something. -/
def count (d : Disk) (ps : List Path) : Nat := ps.countP fun p => d.exists? p matches .ok true

/-- The disk `d'` is `d` without the files `fs` of the directory `p`, as far as they were there. -/
structure Cleared (d : Disk) (p : Path) (fs : List String) (d' : Disk) : Prop where
  home : d'.home = d.home
  place : ∀ q, d'.node? q = d.node? q ∨
    d'.node? q = none ∧ ∃ f ∈ fs, ∃ content, d.find (p.join f) = .ok (q, .file content)
  gone : ∀ f ∈ fs, d'.find (p.join f) = .error .notFound
  other : ∀ g, IsEntryName g → g ∉ fs → d'.find (p.join g) = d.find (p.join g)

namespace Cleared

variable {d d₁ d₂ d' : Disk} {p : Path} {f : String} {fs : List String}

theorem refl (d : Disk) (p : Path) : d.Cleared p [] d :=
  ⟨rfl, fun _ => .inl rfl, fun _ h => absurd h (by simp), fun _ _ _ => rfl⟩

/-- One file first and then others, which have other names. -/
theorem cons (h₁ : d.Cleared p [f] d₁) (h₂ : d₁.Cleared p fs d₂) (hf : IsEntryName f)
    (hfs : ∀ g ∈ fs, IsEntryName g) (hne : f ∉ fs) : d.Cleared p (f :: fs) d₂ where
  home := h₂.home.trans h₁.home
  place q := by
    rcases h₂.place q with hq₂ | ⟨hq₂, g, hg, content, hfind⟩
    · rcases h₁.place q with hq₁ | ⟨hq₁, g, hg, content, hfind⟩
      · exact .inl (hq₂.trans hq₁)
      · obtain rfl := List.mem_singleton.mp hg
        exact .inr ⟨hq₂.trans hq₁, g, List.mem_cons_self, content, hfind⟩
    · have hgf : g ∉ [f] := fun hc => hne (List.mem_singleton.mp hc ▸ hg)
      rw [h₁.other g (hfs g hg) hgf] at hfind
      exact .inr ⟨hq₂, g, List.mem_cons_of_mem f hg, content, hfind⟩
  gone g hg := by
    rcases List.mem_cons.mp hg with rfl | hg
    · rw [h₂.other g hf hne, h₁.gone g List.mem_cons_self]
    · exact h₂.gone g hg
  other g hname hg := by
    rw [List.mem_cons, not_or] at hg
    rw [h₂.other g hname hg.2, h₁.other g hname (by simpa using hg.1)]

/-- No directory was deleted. -/
theorem keeps (h : d.Cleared p fs d') : d.Keeps d' := by
  refine ⟨h.home, ?_⟩
  intro q hq
  rcases h.place q with heq | ⟨-, f, -, content, hfind⟩
  · rwa [heq]
  · rw [node?_of_find hfind] at hq
    exact absurd hq (by simp)

/-- And none was made. -/
theorem kept (h : d.Cleared p fs d') : d'.Keeps d := by
  refine ⟨h.home.symm, ?_⟩
  intro q hq
  rcases h.place q with heq | ⟨hnone, -⟩
  · rwa [heq] at hq
  · rw [hnone] at hq
    exact absurd hq (by simp)

/-- **Every other path is unchanged.**  A path leads to what it led to before, unless that was one
of the files. -/
theorem find_iff (h : d.Cleared p fs d') {p' : Path} {x : Place × Node} :
    d'.find p' = .ok x ↔ d.find p' = .ok x ∧ ∀ f ∈ fs, d.find (p.join f) ≠ .ok x := by
  obtain ⟨q, x⟩ := x
  constructor
  · intro hfind
    have hnode := node?_of_find hfind
    constructor
    · rcases h.place q with heq | ⟨hnone, -⟩
      · exact find_keeps h.kept hfind (heq ▸ hnode)
      · rw [hnone] at hnode
        exact absurd hnode (by simp)
    · intro f hf hc
      have hagain := find_keeps h.keeps hc hnode
      rw [h.gone f hf] at hagain
      exact absurd hagain (by simp)
  · rintro ⟨hfind, hother⟩
    have hnode := node?_of_find hfind
    rcases h.place q with heq | ⟨-, f, hf, content, hfile⟩
    · exact find_keeps h.keeps hfind (heq ▸ hnode)
    · obtain rfl := Option.some.inj (hnode.symm.trans (node?_of_find hfile))
      exact absurd hfile (hother f hf)

end Cleared

end Disk

namespace Store

variable {s : Store} {d d' : Disk} {dir : Place} {p : Path} {name f : String} {fs : List String}

/-- Remove each of these files that is there, and count them. -/
def removeEach : List Path → Action Nat
  | [] => pure 0
  | p :: ps => do
    let removed ← removeIfPresent p
    let others ← removeEach ps
    pure (removed.toNat + others)

/-- A removal takes away a file, or there was nothing. -/
theorem removeIfPresent_yields_iff {b : Bool} : (removeIfPresent p).Yields d b d' ↔
    (d.find p = .error .notFound ∧ b = false ∧ d' = d) ∨
      ∃ q content, d.find p = .ok (q, .file content) ∧ b = true ∧ d' = d.eraseFile q := by
  rw [removeIfPresent, yields_request, removeFile_eq_find]
  cases d.find p with
  | error e =>
    cases e <;> simp [and_comm, eq_comm]
  | ok found =>
    obtain ⟨q, x⟩ := found
    cases x with
    | directory => simp
    | file content => simp [and_comm, eq_comm]

/-- **One file.**  Whether it was there is reported, and it is taken away. -/
theorem cleared_of_removeIfPresent (hf : IsEntryName f) {b : Bool}
    (h : (removeIfPresent (p.join f)).Yields d b d') :
    d.exists? (p.join f) = .ok b ∧ d.Cleared p [f] d' := by
  rcases removeIfPresent_yields_iff.mp h with ⟨hfind, rfl, rfl⟩ | ⟨q, content, hfind, rfl, rfl⟩
  · refine ⟨by rw [exists?, hfind], rfl, fun q => .inl rfl, ?_, fun _ _ _ => rfl⟩
    intro g hg
    rw [List.mem_singleton.mp hg, hfind]
  · obtain ⟨dir, hd⟩ := directoryAt_of_find_join hf hfind
    have hnode := node?_of_find hfind
    have hq : q = f :: dir := by
      rw [find_join hd hf] at hfind
      split at hfind
      · exact absurd hfind (by simp)
      · split at hfind
        · exact absurd hfind (by simp)
        · exact (Prod.mk.inj (Except.ok.inj hfind)).1.symm
    have hfile : d.node? q ≠ some .directory := by
      rw [hnode]
      simp
    have hp : d.Patched dir [(f, none)] (d.eraseFile q) := by
      rw [hq] at hfile ⊢
      exact patched_eraseFile hfile
    refine ⟨by rw [exists?, hfind], hp.home, ?_, ?_, ?_⟩
    · intro q'
      rw [node?_eraseFile hfile]
      split
      · next heq => exact .inr ⟨rfl, f, List.mem_singleton_self f, content, heq ▸ hfind⟩
      · exact .inl rfl
    · intro g hg
      rw [List.mem_singleton.mp hg]
      exact find_of_removed hp.keeps hfind (by rw [node?_eraseFile hfile, if_pos rfl])
    · intro g hg hne
      refine find_join_congr hd (hp.directoryAt hd) hg ?_
      rw [node?_eraseFile hfile, if_neg]
      rw [hq]
      exact fun hc => hne (List.mem_singleton.mpr (List.cons.inj hc).1)

/-- **All of them**, by induction on the files: those that were there are counted. -/
theorem removeEach_yields : ∀ (fs : List String) (d : Disk) (k : Nat) (d' : Disk),
    (∀ f ∈ fs, IsEntryName f) → fs.Nodup → (removeEach (fs.map p.join)).Yields d k d' →
    k = d.count (fs.map p.join) ∧ d.Cleared p fs d' := by
  intro fs
  induction fs with
  | nil =>
    intro d k d' _ _ h
    obtain ⟨rfl, rfl⟩ := yields_pure.mp h
    exact ⟨rfl, Cleared.refl _ p⟩
  | cons f fs ih =>
    intro d k d' hnames hnodup h
    obtain ⟨hne, hnodup⟩ := List.nodup_cons.mp hnodup
    have hf := hnames f List.mem_cons_self
    have hfs : ∀ g ∈ fs, IsEntryName g := fun g hg => hnames g (List.mem_cons_of_mem f hg)
    rw [List.map_cons, removeEach, yields_bind] at h
    obtain ⟨removed, d₁, hremoved, h⟩ := h
    obtain ⟨others, d₂, hothers, h⟩ := yields_bind.mp h
    obtain ⟨rfl, rfl⟩ := yields_pure.mp h
    obtain ⟨hexists, hcleared⟩ := cleared_of_removeIfPresent hf hremoved
    obtain ⟨rfl, hrest⟩ := ih d₁ others _ hfs hnodup hothers
    refine ⟨?_, hcleared.cons hrest hf hfs hne⟩
    -- the others are counted after the first was removed, where they are as they were before
    have hsame : d₁.count (fs.map p.join) = d.count (fs.map p.join) := by
      refine List.countP_congr ?_
      intro p' hp'
      obtain ⟨g, hg, rfl⟩ := List.mem_map.mp hp'
      have hgf : g ∉ [f] := fun hc => hne (List.mem_singleton.mp hc ▸ hg)
      rw [exists?, exists?, hcleared.other g (hfs g hg) hgf]
    rw [hsame, count, count, List.map_cons, List.countP_cons, hexists, Nat.add_comm]
    cases removed <;> rfl

/-- Where none of the files is there, none is removed. -/
theorem removeEach_of_missing {ps : List Path} (h : ∀ p ∈ ps, d.find p = .error .notFound) :
    (removeEach ps).Yields d 0 d := by
  induction ps with
  | nil => exact yields_pure.mpr ⟨rfl, rfl⟩
  | cons p ps ih =>
    rw [removeEach, yields_bind]
    refine ⟨false, d, removeIfPresent_yields_iff.mpr (.inl ⟨h p List.mem_cons_self, rfl, rfl⟩), ?_⟩
    rw [yields_bind]
    refine ⟨0, d, ih fun p' hp' => h p' (List.mem_cons_of_mem p hp'), ?_⟩
    exact yields_pure.mpr ⟨rfl, rfl⟩

/-- Where each of the files can be removed or is missing, the loop comes to its end. -/
theorem removeEach_of_replaceable : ∀ (fs : List String) (d : Disk), d.directoryAt p = .ok dir →
    (∀ f ∈ fs, IsEntryName f) → (∀ f ∈ fs, d.Replaceable p dir f) →
    ∃ k d', (removeEach (fs.map p.join)).Yields d k d' := by
  intro fs
  induction fs with
  | nil => exact fun d _ _ _ => ⟨0, d, yields_pure.mpr ⟨rfl, rfl⟩⟩
  | cons f fs ih =>
    intro d hd hnames hfiles
    rcases removeIfPresent_cases hd (hnames f List.mem_cons_self) with ⟨-, d₁, hy, hp⟩ | ⟨hr, -⟩
    · obtain ⟨k, d', hrest⟩ := ih d₁ (hp.directoryAt hd)
        (fun g hg => hnames g (List.mem_cons_of_mem f hg))
        (fun g hg => hp.replaceable_iff.mpr (hfiles g (List.mem_cons_of_mem f hg)))
      rw [List.map_cons, removeEach]
      exact ⟨_, d', yields_bind.mpr ⟨_, d₁, hy,
        yields_bind.mpr ⟨k, d', hrest, yields_pure.mpr ⟨rfl, rfl⟩⟩⟩⟩
    · exact absurd (hfiles f List.mem_cons_self) hr

/-! ## The files of a name -/

/-- A removal goes through the three paths. -/
theorem remove_eq (s : Store) (name : String) : s.remove name = (do
    let paths ← of (s.paths name)
    let files ← removeEach paths.all
    emit (.removed name files)
    pure files) := by
  simp only [Store.remove, ArtifactPaths.all, removeEach, bind_assoc, pure_bind, Nat.add_zero,
    Nat.add_assoc]

theorem remove_yields_iff {k : Nat} : (s.remove name).Yields d k d' ↔
    PresetName.IsValid name ∧ (removeEach (s.artifacts name).all).Yields d k d' := by
  rw [remove_eq]
  constructor
  · intro h
    obtain ⟨paths, _, hpaths, hrest⟩ := yields_bind.mp h
    rw [yields_of, paths_eq_ok_iff] at hpaths
    obtain ⟨⟨hv, rfl⟩, rfl⟩ := hpaths
    simp only [yields_bind, yields_emit, yields_pure] at hrest
    obtain ⟨files, d₁, heach, -, _, rfl, rfl, rfl⟩ := hrest
    exact ⟨hv, heach⟩
  · rintro ⟨hv, heach⟩
    refine yields_bind.mpr ⟨_, d, yields_of.mpr ⟨s.paths_of_isValid hv, rfl⟩, ?_⟩
    refine yields_bind.mpr ⟨k, d', heach, ?_⟩
    exact yields_bind.mpr ⟨(), d', yields_emit.mpr rfl, yields_pure.mpr ⟨rfl, rfl⟩⟩

/-- A removal counts the files of its name and takes them away. -/
theorem cleared_of_remove (hs : s.settings.SlashFree) {k : Nat}
    (h : (s.remove name).Yields d k d') : PresetName.IsValid name ∧
      k = d.count (s.artifacts name).all ∧ d.Cleared s.root (s.files name) d' := by
  obtain ⟨hv, heach⟩ := remove_yields_iff.mp h
  exact ⟨hv, removeEach_yields (s.files name) d k d' (isEntryName_of_mem_files hs hv)
    (s.nodup_files name) heach⟩

/-- What is listed where the document of a name is missing. -/
theorem list_of_missing_document (hs : s.settings.SlashFree) (hv : PresetName.IsValid name)
    (h : d.find (s.documentPath name) = .error .notFound) :
    ∃ names, s.list.Yields d names d ∧ (d.Proper → name ∉ names) := by
  have hf := isEntryName_documentFile hs hv
  rcases find_of_missing_entry hf h with ⟨dir, hfind⟩ | hmissing
  · refine ⟨_, list_yields_of_find hfind, ?_⟩
    intro hproper hmem
    have hfiles : ∀ f ∈ d.children dir, IsEntryName f :=
      fun f hf => hproper f dir (mem_children.mp hf)
    have hthere := mem_children.mp ((mem_inventory_of_entries hfiles).mp hmem).2
    exact hthere ((find_join_eq_notFound_iff (directoryAt_of_find hfind) hf).mp h).2
  · exact ⟨[], list_yields_of_missing hmissing, fun _ => by simp⟩

/-- No request to a store deletes a directory. -/
theorem stepsKeep_directory (s : Store) (q : Place) :
    s.StepsKeep fun d => d.node? q = some .directory := by
  have hwrite : ∀ p text, (writeText p text).Preserves fun d => d.node? q = some .directory := by
    intro p text d hd
    rcases disk_writeText_cases p text d with heq | ⟨dir, file, -, hp⟩
    · rwa [heq]
    · exact hp.keeps.directory q hd
  refine ⟨?_, ?_, fun _ _ _ => hwrite _ _, fun _ _ _ => hwrite _ _, fun _ _ _ => hwrite _ _⟩
  · intro d hd
    exact (s.made_rooted d).keeps.directory q hd
  · intro p d hd
    rcases disk_removeIfPresent_cases p d with heq | ⟨dir, file, -, hp⟩
    · rwa [heq]
    · exact hp.keeps.directory q hd

/-- **A removal takes exactly the three files of its name.**  When it succeeds, the answer is how
many of the three paths, which are different, led to something; none of them does afterwards.  Every
other path leads to what it led to before, every other place holds what it held, and so does every
directory, that of the store included.  From then on the name is not listed, it is loaded as nothing,
and a second removal finds nothing.  However a removal ends, it deletes no directory. -/
theorem remove_exact (s : Store) (hs : s.settings.SlashFree) (name : String) (d : Disk) :
    (∀ k d', (s.remove name).Yields d k d' → ∃ a, s.paths name = .ok a ∧ a.all.Nodup ∧
      k = d.count a.all ∧ (∀ p ∈ a.all, d'.exists? p = .ok false) ∧
      (∀ p x, d'.find p = .ok x ↔ d.find p = .ok x ∧ ∀ p' ∈ a.all, d.find p' ≠ .ok x) ∧
      (∀ q, (∀ p ∈ a.all, ∀ x, d.find p ≠ .ok (q, x)) → d'.node? q = d.node? q) ∧
      (∀ p q, d'.find p = .ok (q, .directory) ↔ d.find p = .ok (q, .directory)) ∧
      (∃ names, s.list.Yields d' names d' ∧ (d.Proper → name ∉ names)) ∧
      (s.load name).Yields d' none d' ∧ (s.remove name).Yields d' 0 d') ∧
    ∀ q, d.node? q = some .directory →
      ((s.remove name).run d).disk.node? q = some .directory := by
  refine ⟨?_, fun q hq => (s.stepsKeep_directory q).removal name d hq⟩
  intro k d' h
  obtain ⟨hv, hcount, hcleared⟩ := cleared_of_remove hs h
  have hgone : ∀ p ∈ (s.artifacts name).all, d'.find p = .error .notFound := by
    rw [all_artifacts]
    intro p hp
    obtain ⟨f, hf, rfl⟩ := List.mem_map.mp hp
    exact hcleared.gone f hf
  have hdriver : d'.find (s.artifacts name).driver = .error .notFound :=
    hcleared.gone _ (s.driverFile_mem_files name)
  have hproper : d.Proper → d'.Proper :=
    fun hd => h.2 ▸ s.stepsKeep_proper.removal name d hd
  refine ⟨s.artifacts name, s.paths_of_isValid hv, nodup_artifacts hs hv, hcount, ?_, ?_, ?_, ?_,
    ?_, ?_, ?_⟩
  · intro p hp
    rw [exists?, hgone p hp]
  · intro p x
    rw [hcleared.find_iff, all_artifacts, List.forall_mem_map]
  · intro q hq
    rcases hcleared.place q with heq | ⟨-, f, hf, content, hfind⟩
    · exact heq
    · exact absurd hfind (hq _ (List.mem_map_of_mem hf) _)
  · intro p q
    constructor
    · intro hfind
      exact find_keeps hcleared.kept hfind
        (hcleared.kept.directory q (node?_of_find hfind))
    · intro hfind
      exact find_keeps hcleared.keeps hfind
        (hcleared.keeps.directory q (node?_of_find hfind))
  · obtain ⟨names, hy, hmem⟩ := list_of_missing_document hs hv
      (hcleared.gone _ (s.documentFile_mem_files name))
    exact ⟨names, hy, fun hd => hmem (hproper hd)⟩
  · exact load_yields_none hv (by rw [exists?, hdriver])
  · exact remove_yields_iff.mpr ⟨hv, removeEach_of_missing hgone⟩

/-- A preset without its distance fragment, beside one of another name and a directory. -/
def partlyThere : Disk :=
  holding [("Foo.ush", .file .empty), ("Foo_Conf.json", .file .empty), ("Bar.ush", .file .empty),
    ("FooSDF", .directory)]

theorem remove_exact_partlyThere :
    ∃ d', (remove ⟨⟨"shaders"⟩, default⟩ "Foo").Yields partlyThere 2 d' ∧
      d'.exists? ⟨"shaders/Foo.ush"⟩ = .ok false ∧
      d'.node? ["Bar.ush", "shaders", "scratch"] = some (.file .empty) ∧
      (remove ⟨⟨"shaders"⟩, default⟩ "Foo").Yields d' 0 d' ∧
      d'.node? ["FooSDF", "shaders", "scratch"] = some .directory := by
  have hy : (remove ⟨⟨"shaders"⟩, default⟩ "Foo").Yields partlyThere 2 _ := ⟨rfl, rfl⟩
  obtain ⟨hyields, hdirectory⟩ := remove_exact ⟨⟨"shaders"⟩, default⟩
    Settings.plain_default.slashFree "Foo" partlyThere
  obtain ⟨a, ha, -, -, hgone, -, hother, -, -, -, hagain⟩ := hyields 2 _ hy
  obtain rfl := Except.ok.inj ha
  have hfar : ∀ p ∈ (artifacts ⟨⟨"shaders"⟩, default⟩ "Foo").all,
      (partlyThere.find p).toOption.map Prod.fst ≠ some ["Bar.ush", "shaders", "scratch"] := by
    decide
  refine ⟨_, hy, hgone _ List.mem_cons_self, ?_, hagain, hdirectory _ (by decide)⟩
  rw [hother _ fun p hp x hc => hfar p hp (by rw [hc]; rfl)]
  decide

end Store

end FractalShader
