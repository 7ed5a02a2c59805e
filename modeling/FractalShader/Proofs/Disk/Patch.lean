import FractalShader.Proofs.Disk.Entry

/-!
# Changing the entries of one directory

What a sequence of writes and removals in one directory did is a list of
*patches*: the names that were changed, the last change first, with what each
has become.

* `Patched` — one disk is another after some patches of a directory;
* `Patched.trans` — patches made one after another are one list;
* `Patched.keeps`, `Patched.directoryAt` — no directory is lost, so paths of
  directories go on leading where they led;
* `SameTree` — two disks that only their lists of entries tell apart; patches of
  different names lead to such in either order (`Patched.sameTree_of_disjoint`);
* `patched_put`, `patched_eraseFile`, `patched_absent` — writing or removing an
  entry is a patch of one name.
-/

namespace FractalShader.Disk

/-- Names of entries with what they have become: a file of some content, or nothing. -/
abbrev Patches := List (String × Option ByteArray)

/-- The disk `d'` is `d` after the patches `ps` of the directory `dir`.  Only what is no directory
is patched. -/
structure Patched (d : Disk) (dir : Place) (ps : Patches) (d' : Disk) : Prop where
  home : d'.home = d.home
  entry : ∀ f, d'.node? (f :: dir) =
    match ps.lookup f with
    | none => d.node? (f :: dir)
    | some c => c.map .file
  elsewhere : ∀ q, (∀ f, q ≠ f :: dir) → d'.node? q = d.node? q
  files : ∀ f c, ps.lookup f = some c → d.node? (f :: dir) ≠ some .directory

/-- The last change of a name is found first. -/
theorem lookup_cons_patch (f file : String) (c : Option ByteArray) (ps : Patches) :
    List.lookup f ((file, c) :: ps) = if f = file then some c else List.lookup f ps := by
  by_cases hf : f = file
  · rw [if_pos hf, hf, List.lookup_cons_self]
  · rw [if_neg hf, List.lookup_cons, beq_eq_false_iff_ne.mpr hf]

theorem lookup_singleton_patch (f file : String) (c : Option ByteArray) :
    List.lookup f [(file, c)] = if f = file then some c else none :=
  lookup_cons_patch f file c []

/-- A single patch is found only under its own name. -/
theorem eq_of_lookup_singleton {f file : String} {c k : Option ByteArray}
    (h : List.lookup f [(file, c)] = some k) : f = file ∧ c = k := by
  rw [lookup_singleton_patch] at h
  split at h
  · next hf => exact ⟨hf, Option.some.inj h⟩
  · exact absurd h (by simp)

theorem mem_of_lookup {ps : Patches} {f : String} {c : Option ByteArray}
    (h : ps.lookup f = some c) : (f, c) ∈ ps := by
  obtain ⟨front, back, rfl, -⟩ := List.lookup_eq_some_iff.mp h
  exact List.mem_append_right _ List.mem_cons_self

/-- Names that were not patched are not found among the patches. -/
theorem lookup_eq_none {ps : Patches} {fs : List String} {f : String}
    (hmem : ∀ f c, ps.lookup f = some c → f ∈ fs) (hf : f ∉ fs) : ps.lookup f = none :=
  Option.eq_none_iff_forall_ne_some.mpr fun c hc => hf (hmem f c hc)

/-- Names that are all removed. -/
theorem lookup_map_removed (l : List String) (f : String) :
    List.lookup f (l.map fun g => (g, (none : Option ByteArray)))
      = if f ∈ l then some none else none := by
  induction l with
  | nil => rfl
  | cons g l ih =>
    rw [List.map_cons, lookup_cons_patch, ih]
    by_cases hf : f = g
    · simp [hf]
    · simp [hf]

namespace Patched

variable {d d₁ d₂ : Disk} {dir : Place} {ps qs : Patches}

theorem refl (d : Disk) (dir : Place) : d.Patched dir [] d :=
  ⟨rfl, fun _ => rfl, fun _ _ => rfl, fun _ _ h => absurd h (by simp)⟩

theorem trans (h₁ : d.Patched dir ps d₁) (h₂ : d₁.Patched dir qs d₂) :
    d.Patched dir (qs ++ ps) d₂ where
  home := h₂.home.trans h₁.home
  entry f := by
    rw [h₂.entry f, h₁.entry f, List.lookup_append]
    cases qs.lookup f <;> rfl
  elsewhere q hq := (h₂.elsewhere q hq).trans (h₁.elsewhere q hq)
  files f c hf := by
    cases hps : ps.lookup f with
    | some c' => exact h₁.files f c' hps
    | none =>
      rw [List.lookup_append, hps, Option.or_none] at hf
      have := h₂.files f c hf
      rwa [h₁.entry f, hps] at this

/-- Only the last change of each name counts. -/
theorem congr (h : d.Patched dir ps d₁) (hl : ∀ f, ps.lookup f = qs.lookup f) :
    d.Patched dir qs d₁ where
  home := h.home
  entry f := by rw [h.entry f, hl f]
  elsewhere := h.elsewhere
  files f c hf := h.files f c ((hl f).trans hf)

/-- One more removal after others. -/
theorem removed_concat {l : List String} {f : String}
    (h₁ : d.Patched dir (l.map fun g => (g, none)) d₁) (h₂ : d₁.Patched dir [(f, none)] d₂) :
    d.Patched dir ((l ++ [f]).map fun g => (g, none)) d₂ := by
  apply (h₁.trans h₂).congr
  intro g
  rw [List.singleton_append, lookup_cons_patch, lookup_map_removed, lookup_map_removed]
  by_cases hg : g = f
  · simp [hg]
  · simp [hg]

theorem entry_of_lookup (h : d.Patched dir ps d₁) {f : String} {c : Option ByteArray}
    (hl : ps.lookup f = some c) : d₁.node? (f :: dir) = c.map .file := by
  rw [h.entry f, hl]

theorem entry_of_written (h : d.Patched dir ps d₁) {f : String} {content : ByteArray}
    (hl : ps.lookup f = some (some content)) : d₁.node? (f :: dir) = some (.file content) :=
  h.entry_of_lookup hl

theorem entry_of_removed (h : d.Patched dir ps d₁) {f : String}
    (hl : ps.lookup f = some none) : d₁.node? (f :: dir) = none :=
  h.entry_of_lookup hl

theorem entry_of_not_mem (h : d.Patched dir ps d₁) {f : String} (hl : ps.lookup f = none) :
    d₁.node? (f :: dir) = d.node? (f :: dir) := by
  rw [h.entry f, hl]

/-- A place is as it was, or it is one of the patched entries. -/
theorem node?_eq_or (h : d.Patched dir ps d₁) (q : Place) :
    d₁.node? q = d.node? q ∨ ∃ f c, q = f :: dir ∧ ps.lookup f = some c := by
  by_cases hq : ∃ f, q = f :: dir
  · obtain ⟨f, rfl⟩ := hq
    cases hl : ps.lookup f with
    | none => exact .inl (h.entry_of_not_mem hl)
    | some c => exact .inr ⟨f, c, rfl, hl⟩
  · exact .inl (h.elsewhere q fun f hf => hq ⟨f, hf⟩)

/-- Where every patch says what was there, nothing changes. -/
theorem node?_eq_of_same (h : d.Patched dir ps d₁)
    (hsame : ∀ f c, ps.lookup f = some c → d.node? (f :: dir) = c.map .file) (q : Place) :
    d₁.node? q = d.node? q := by
  rcases h.node?_eq_or q with hq | ⟨f, c, rfl, hl⟩
  · exact hq
  · rw [h.entry_of_lookup hl, hsame f c hl]

/-- Patching neither makes directories nor loses any. -/
theorem directory_iff (h : d.Patched dir ps d₁) (q : Place) :
    d₁.node? q = some .directory ↔ d.node? q = some .directory := by
  rcases h.node?_eq_or q with hq | ⟨f, c, rfl, hl⟩
  · rw [hq]
  · have hold := h.files f c hl
    rw [h.entry_of_lookup hl]
    cases c <;> simpa using hold

theorem keeps (h : d.Patched dir ps d₁) : d.Keeps d₁ :=
  ⟨h.home, fun q hq => (h.directory_iff q).mpr hq⟩

theorem directoryAt (h : d.Patched dir ps d₁) {p : Path} {q : Place}
    (hd : d.directoryAt p = .ok q) : d₁.directoryAt p = .ok q :=
  directoryAt_keeps h.keeps hd

end Patched

/-! ## The same tree -/

/-- The working directory is the same on both disks, and so is what stands at every place. -/
structure SameTree (d d' : Disk) : Prop where
  home : d'.home = d.home
  node : ∀ q, d'.node? q = d.node? q

/-- Nothing was patched. -/
theorem SameTree.patched {d d' : Disk} (h : d.SameTree d') (dir : Place) : d.Patched dir [] d' :=
  ⟨h.home, fun f => h.node (f :: dir), fun q _ => h.node q, fun _ _ hl => absurd hl (by simp)⟩

theorem SameTree.symm {d d' : Disk} (h : d.SameTree d') : d'.SameTree d :=
  ⟨h.home.symm, fun q => (h.node q).symm⟩

/-- The same patches lead to the same tree. -/
theorem Patched.sameTree {d d₁ d₂ : Disk} {dir : Place} {ps : Patches} (h₁ : d.Patched dir ps d₁)
    (h₂ : d.Patched dir ps d₂) : d₁.SameTree d₂ := by
  refine ⟨h₂.home.trans h₁.home.symm, ?_⟩
  intro q
  by_cases hq : ∃ f, q = f :: dir
  · obtain ⟨f, rfl⟩ := hq
    rw [h₁.entry f, h₂.entry f]
  · have hother : ∀ f, q ≠ f :: dir := fun f hf => hq ⟨f, hf⟩
    rw [h₁.elsewhere q hother, h₂.elsewhere q hother]

/-- Patches of different names can be made in either order. -/
theorem Patched.sameTree_of_disjoint {d d₁ d₂ d₁₂ d₂₁ : Disk} {dir : Place} {ps qs : Patches}
    (h₁ : d.Patched dir ps d₁) (h₁₂ : d₁.Patched dir qs d₁₂) (h₂ : d.Patched dir qs d₂)
    (h₂₁ : d₂.Patched dir ps d₂₁) (hdisjoint : ∀ f, ps.lookup f = none ∨ qs.lookup f = none) :
    d₁₂.SameTree d₂₁ := by
  refine (h₁.trans h₁₂).sameTree ((h₂.trans h₂₁).congr ?_)
  intro f
  rw [List.lookup_append, List.lookup_append]
  rcases hdisjoint f with hf | hf
  · rw [hf, Option.none_or, Option.or_none]
  · rw [hf, Option.none_or, Option.or_none]

/-! ## Single patches -/

/-- Can the entry `file` of the directory `p`, whose place is `dir`, be written and removed? -/
structure Replaceable (d : Disk) (p : Path) (dir : Place) (file : String) : Prop where
  fits : p.entryFault? file = none
  not_directory : d.node? (file :: dir) ≠ some .directory

section Single

variable {d : Disk} {p : Path} {dir : Place} {file : String}

theorem Patched.replaceable_iff {d₁ : Disk} {ps : Patches} (h : d.Patched dir ps d₁) :
    d₁.Replaceable p dir file ↔ d.Replaceable p dir file := by
  constructor
  · intro hr
    exact ⟨hr.fits, fun hc => hr.not_directory ((h.directory_iff _).mpr hc)⟩
  · intro hr
    exact ⟨hr.fits, fun hc => hr.not_directory ((h.directory_iff _).mp hc)⟩

theorem patched_put (hdir : d.node? dir = some .directory)
    (hn : d.node? (file :: dir) ≠ some .directory) (content : ByteArray) :
    d.Patched dir [(file, some content)] (d.put file dir (.file content)) := by
  have had : d.admits file dir (.file content) = true := by
    simp [admits, hdir, hn]
  refine ⟨d.home_put file dir _, ?_, ?_, ?_⟩
  · intro f
    rw [node?_put had, lookup_singleton_patch]
    by_cases hf : f = file
    · simp [hf]
    · simp [hf]
  · intro q hq
    rw [node?_put had, if_neg (hq file)]
  · intro f c hl
    rwa [(eq_of_lookup_singleton hl).1]

theorem patched_eraseFile (hn : d.node? (file :: dir) ≠ some .directory) :
    d.Patched dir [(file, none)] (d.eraseFile (file :: dir)) := by
  refine ⟨d.home_eraseFile _, ?_, ?_, ?_⟩
  · intro f
    rw [node?_eraseFile hn, lookup_singleton_patch]
    by_cases hf : f = file
    · simp [hf]
    · simp [hf]
  · intro q hq
    rw [node?_eraseFile hn, if_neg (hq file)]
  · intro f c hl
    rwa [(eq_of_lookup_singleton hl).1]

/-- To remove what is not there is to change nothing. -/
theorem patched_absent (hn : d.node? (file :: dir) = none) :
    d.Patched dir [(file, none)] d := by
  refine ⟨rfl, ?_, fun _ _ => rfl, ?_⟩
  · intro f
    rw [lookup_singleton_patch]
    by_cases hf : f = file
    · simp [hf, hn]
    · simp [hf]
  · intro f c hl
    rw [(eq_of_lookup_singleton hl).1, hn]
    simp

end Single

end FractalShader.Disk
