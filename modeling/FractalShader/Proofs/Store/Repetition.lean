import FractalShader.Proofs.Store.Regeneration

/-!
# Regenerating again

A regeneration writes two files, and reads or looks for others only: the document of
its preset and those of the neighbours, which are no fragments of it whatever the
extensions are.  So what it read is still there afterwards, it could be made again, and
then it would write what is there already.

* `UpToDate`, `Regenerable.upToDate` — a regeneration does not stand in its own way;
* `UpToDate.regenerate` — a second one changes nothing;
* `Regenerable.place`, `Regenerable.find_apart` — the two places that a regeneration may
  change, and what is found elsewhere;
* `regenerate_strict_iff` — when strict regeneration succeeds where lenient does;
* `regenerate_settles` — all of it, for every disk and name.
-/

namespace FractalShader.Store

open FractalShader.Action FractalShader.Disk

variable {s : Store} {d d' : Disk} {dir : Place} {name : String} {strict : Bool} {c : Config}
  {g : Generated}

/-! ## What a regeneration leaves -/

/-- The preset can be regenerated, and its fragments are there as they would be generated. -/
structure UpToDate (s : Store) (strict : Bool) (d : Disk) (dir : Place) (name : String)
    (g : Generated) : Prop where
  regenerable : s.Regenerable strict d dir name g
  holds : s.HoldsFragments d dir name g

namespace UpToDate

/-- **Where it was made, a regeneration succeeds again and changes nothing.** -/
theorem regenerate (h : s.UpToDate strict d dir name g) (hs : s.settings.SlashFree) :
    ∃ d', (s.regenerate name strict).Yields d ⟨s.artifacts name, g⟩ d' ∧ d.SameTree d' := by
  obtain ⟨d', hy, hp⟩ := h.regenerable.yields hs
  exact ⟨d', hy, hp.home, h.holds.unchanged hp⟩

theorem find_driver (h : s.UpToDate strict d dir name g) (hs : s.settings.SlashFree) :
    d.find (s.artifacts name).driver =
      .ok (s.driverFile name :: dir, .file g.driver.toUTF8) := by
  have hname := isEntryName_driverFile hs h.regenerable.valid
  rw [artifacts, find_join h.regenerable.root hname, h.regenerable.driver.fits, h.holds.driver]

theorem find_sdf (h : s.UpToDate strict d dir name g) (hs : s.settings.SlashFree) :
    d.find (s.artifacts name).sdf = .ok (s.sdfFile name :: dir, .file g.sdf.toUTF8) := by
  have hname := isEntryName_sdfFile hs h.regenerable.valid
  rw [artifacts, find_join h.regenerable.root hname, h.regenerable.sdf.fits, h.holds.sdf]

/-- What the document says is what is loaded, since the driver is there. -/
theorem load (h : s.UpToDate strict d dir name g) (hs : s.settings.SlashFree)
    (hread : (s.readDocument name).Yields d c d) : (s.load name).Yields d (some c) d := by
  refine load_yields_some ?_ hread
  rw [exists?, h.find_driver hs]

end UpToDate

theorem mem_fragments_of_lookup {f : String} {driver sdf k : Option ByteArray}
    (hl : List.lookup f [(s.sdfFile name, sdf), (s.driverFile name, driver)] = some k) :
    f ∈ s.fragments name := by
  have hmem := mem_of_lookup hl
  simp only [List.mem_cons, Prod.mk.injEq, List.not_mem_nil, or_false] at hmem
  rcases hmem with ⟨rfl, -⟩ | ⟨rfl, -⟩ <;> simp [fragments]

/-- Where fragments are written, every other entry is as it was. -/
theorem entry_of_not_mem_fragments {f : String} {driver sdf : Option ByteArray}
    (hp : d.Patched dir [(s.sdfFile name, sdf), (s.driverFile name, driver)] d')
    (hf : f ∉ s.fragments name) : d'.node? (f :: dir) = d.node? (f :: dir) :=
  hp.entry_of_not_mem (lookup_eq_none (fun _ _ => mem_fragments_of_lookup) hf)

namespace Regenerable

variable (h : s.Regenerable strict d dir name g) (hs : s.settings.SlashFree)
  (hp : d.Patched dir
    [(s.sdfFile name, some g.sdf.toUTF8), (s.driverFile name, some g.driver.toUTF8)] d')
include h hs hp

/-- The documents that a regeneration looks at are found afterwards as they were before. -/
theorem find_documentPath {m : String} (hm : PresetName.IsValid m)
    (hname : m = name ∨ Neighbours name m) :
    d'.find (s.documentPath m) = d.find (s.documentPath m) := by
  have hother : s.documentFile m ∉ s.fragments name := by
    rcases hname with rfl | hn
    · exact s.documentFile_not_mem_fragments m
    · exact fun hc => hn.documentFile_not_mem (mem_files_of_mem_fragments hc)
  exact find_join_congr h.root (hp.directoryAt h.root) (isEntryName_documentFile hs hm)
    (entry_of_not_mem_fragments hp hother)

/-- **A regeneration does not stand in its own way.** -/
theorem upToDate : s.UpToDate strict d' dir name g :=
  ⟨h.congr (hp.directoryAt h.root) (fun _ hm hname => h.find_documentPath hs hp hm hname)
    (hp.replaceable_iff.mpr h.driver) (hp.replaceable_iff.mpr h.sdf), holdsFragments_of_patched hp⟩

/-- A regeneration changes the two fragments of its preset; every other place is as it was. -/
theorem place (q : Place) : d'.node? q = d.node? q ∨
    ∃ path ∈ [(s.artifacts name).driver, (s.artifacts name).sdf],
      ∃ x, d'.find path = .ok (q, x) := by
  have h' := h.upToDate hs hp
  rcases hp.node?_eq_or q with hq | ⟨f, k, rfl, hl⟩
  · exact .inl hq
  · have hmem := mem_fragments_of_lookup hl
    simp only [fragments, List.mem_cons, List.not_mem_nil, or_false] at hmem
    rcases hmem with rfl | rfl
    · exact .inr ⟨_, by simp, _, h'.find_driver hs⟩
    · exact .inr ⟨_, by simp, _, h'.find_sdf hs⟩

/-- What is found under a path that leads to neither of its fragments is found there afterwards. -/
theorem find_apart {p : Path} {q : Place} {x : Node} (hfind : d.find p = .ok (q, x))
    (hapart : ∀ path ∈ [(s.artifacts name).driver, (s.artifacts name).sdf],
      d.find path ≠ d.find p) : d'.find p = .ok (q, x) := by
  have hnode := node?_of_find hfind
  refine find_keeps hp.keeps hfind ?_
  rcases hp.node?_eq_or q with hq | ⟨f, k, rfl, hl⟩
  · rw [hq, hnode]
  · -- one of the two fragments stands where the path leads
    exfalso
    have hmem := mem_fragments_of_lookup hl
    simp only [fragments, List.mem_cons, List.not_mem_nil, or_false] at hmem
    rcases hmem with rfl | rfl
    · refine hapart (s.artifacts name).driver (by simp) ?_
      rw [hfind, artifacts, find_join h.root (isEntryName_driverFile hs h.valid), h.driver.fits,
        hnode]
    · refine hapart (s.artifacts name).sdf (by simp) ?_
      rw [hfind, artifacts, find_join h.root (isEntryName_sdfFile hs h.valid), h.sdf.fits, hnode]

end Regenerable

/-- A regeneration that succeeds could be made, and was. -/
theorem regenerable_of_yields (hs : s.settings.SlashFree) {p : Published}
    (hy : (s.regenerate name strict).Yields d p d') :
    ∃ dir g, p = ⟨s.artifacts name, g⟩ ∧ s.Regenerable strict d dir name g ∧ d.Patched dir
      [(s.sdfFile name, some g.sdf.toUTF8), (s.driverFile name, some g.driver.toUTF8)] d' := by
  obtain ⟨c, -, hread, -⟩ := regenerate_yields hs hy
  obtain ⟨dir, -, hd, -⟩ := readDocument_content hs hread
  have hr := (regenerate_yields_iff hs hd).mp ⟨p, d', hy, rfl⟩
  obtain ⟨d₁, hy₁, hp⟩ := hr.yields hs
  obtain ⟨heq, rfl⟩ := Yields.unique hy hy₁
  exact ⟨dir, p.generated, heq, hr, hp⟩

/-! ## Strict and lenient -/

/-- For a document of known kinds it makes no difference whether a regeneration is strict. -/
theorem regenerate_of_known (hread : (s.readDocument name).Yields d c d)
    (hknown : c.hasUnknown = false) (strict : Bool) :
    (s.regenerate name strict).run d = (s.regenerate name false).run d := by
  unfold Store.regenerate
  rw [run_bind_ok hread.1, run_bind_ok hread.1]
  unfold generate
  rw [Fragment.generate_of_known hknown s.settings strict]

/-- Where lenient regeneration succeeds, strict regeneration is refused for unknown kinds only. -/
theorem regenerate_strict_iff (hs : s.settings.SlashFree) {p : Published}
    (hy : (s.regenerate name false).Yields d p d') (hread : (s.readDocument name).Yields d c d) :
    (∃ p' d'', (s.regenerate name true).Yields d p' d'') ↔ c.hasUnknown = false := by
  constructor
  · rintro ⟨p', d'', hy'⟩
    obtain ⟨c', -, hread', hg, -⟩ := regenerate_yields hs hy'
    obtain ⟨rfl, -⟩ := Yields.unique hread hread'
    exact Fragment.generate_ok_iff.mp ⟨_, hg⟩ rfl
  · intro hknown
    refine ⟨p, d', ?_⟩
    rw [Yields, regenerate_of_known hread hknown true]
    exact hy

/-! ## All of it -/

/-- **Regenerating settles.**  Whatever the disk holds, after a preset has been regenerated: its
document has the bytes it had, and its two other files hold the fragments of the configuration that
was read from there; every place but those two files is as before; that configuration is loaded,
whether or not the preset had a driver; and the same once more succeeds with the same answer and
changes nothing.  And where lenient regeneration succeeds, strict regeneration does exactly for a
configuration without unknown kinds, with the same answer and the same disk. -/
theorem regenerate_settles (s : Store) (hs : s.settings.SlashFree) (name : String) (d : Disk) :
    (∀ strict p d', (s.regenerate name strict).Yields d p d' →
      ∃ c, (s.readDocument name).Yields d c d ∧
        Fragment.generate c s.settings strict = .ok p.generated ∧
        s.paths name = .ok p.paths ∧
        (∃ content, d.readFile p.paths.document = .ok content ∧
          d'.readFile p.paths.document = .ok content) ∧
        d'.readFile p.paths.driver = .ok p.generated.driver.toUTF8 ∧
        d'.readFile p.paths.sdf = .ok p.generated.sdf.toUTF8 ∧
        d'.home = d.home ∧
        (∀ q, d'.node? q = d.node? q ∨
          ∃ path ∈ [p.paths.driver, p.paths.sdf], ∃ x, d'.find path = .ok (q, x)) ∧
        (s.load name).Yields d' (some c) d' ∧
        ∃ d'', (s.regenerate name strict).Yields d' p d'' ∧ d'.SameTree d'') ∧
    ∀ p d' c, (s.regenerate name false).Yields d p d' → (s.readDocument name).Yields d c d →
      ((∃ p' d'', (s.regenerate name true).Yields d p' d'') ↔ c.hasUnknown = false) ∧
      ∀ p' d'', (s.regenerate name true).Yields d p' d'' → p' = p ∧ d'' = d' := by
  constructor
  · intro strict p d' hy
    obtain ⟨c, -, hread, hg, -⟩ := regenerate_yields hs hy
    obtain ⟨dir, g, rfl, hr, hp⟩ := regenerable_of_yields hs hy
    have h := hr.upToDate hs hp
    obtain ⟨-, content, -, hcontent⟩ := readDocument_content hs hread
    have hfind := hr.find_documentPath hs hp hr.valid (.inl rfl)
    refine ⟨c, hread, hg, s.paths_of_isValid hr.valid, ⟨content, hcontent, ?_⟩, ?_, ?_, hp.home,
      hr.place hs hp, h.load hs (readDocument_yields_congr hfind hread), h.regenerate hs⟩
    · rw [artifacts, readFile, hfind]
      exact hcontent
    · rw [readFile, h.find_driver hs]
    · rw [readFile, h.find_sdf hs]
  · intro p d' c hy hread
    have hiff := regenerate_strict_iff hs hy hread
    refine ⟨hiff, ?_⟩
    intro p' d'' hy'
    have hknown := hiff.mp ⟨p', d'', hy'⟩
    rw [Yields, regenerate_of_known hread hknown true] at hy'
    exact Yields.unique hy' hy

/-- A disk on which `Foo` has a document and no fragments. -/
def documentedFoo : Disk :=
  ((Disk.empty ["scratch"]).put "shaders" ["scratch"] .directory).put "Foo_Conf.json"
    ["shaders", "scratch"] (.file (Document.encode ⟨[.boxFold], .box⟩).toUTF8)

/-- There `Foo` cannot be loaded before it is regenerated, and it can be afterwards. -/
theorem regenerate_settles_foo :
    (load ⟨⟨"shaders"⟩, default⟩ "Foo").Yields documentedFoo none documentedFoo ∧
      ∃ p d', (regenerate ⟨⟨"shaders"⟩, default⟩ "Foo" true).Yields documentedFoo p d' ∧
        (load ⟨⟨"shaders"⟩, default⟩ "Foo").Yields d' (some ⟨"Foo", [.boxFold], .box⟩) d' ∧
        ∃ d'', (regenerate ⟨⟨"shaders"⟩, default⟩ "Foo" true).Yields d' p d'' := by
  have hread : (readDocument ⟨⟨"shaders"⟩, default⟩ "Foo").Yields documentedFoo
      ⟨"Foo", [.boxFold], .box⟩ documentedFoo :=
    readDocument_yields_iff.mpr ⟨by decide,
      ⟨_, _, readText_of_readFile rfl, Document.decode_encode ⟨[.boxFold], .box⟩, rfl⟩, rfl⟩
  obtain ⟨g, hg⟩ : ∃ g, Fragment.generate ⟨"Foo", [.boxFold], .box⟩ default true = .ok g :=
    Fragment.generate_ok_iff.mpr (by decide)
  have hr : Regenerable ⟨⟨"shaders"⟩, default⟩ true documentedFoo ["shaders", "scratch"] "Foo" g :=
    ⟨rfl, ⟨_, hread, hg⟩, ⟨rfl, rfl⟩, ⟨by decide, by decide⟩, ⟨by decide, by decide⟩⟩
  obtain ⟨d', hy, -⟩ := hr.yields Settings.plain_default.slashFree
  obtain ⟨c, hread', -, -, -, -, -, -, -, hload, d'', hagain, -⟩ :=
    (regenerate_settles ⟨⟨"shaders"⟩, default⟩ Settings.plain_default.slashFree "Foo"
      documentedFoo).1 _ _ _ hy
  obtain ⟨rfl, -⟩ := Yields.unique hread hread'
  exact ⟨load_yields_none (by decide) rfl, _, d', hy, hload, d'', hagain⟩

end FractalShader.Store
