import FractalShader.Proofs.Disk.Proper
import FractalShader.Proofs.Store.Steps
import FractalShader.Proofs.Text.Order

/-!
# What a store lists

Each entry of the store's directory is put behind the path of the directory, and a
name is read back from that path.  An entry with a proper name is found again under
it, however the directory is spelled, so the names that are read back are those
whose documents are there.  No two entries have one name, and a document has the
name of one preset only; what is listed in order is therefore strictly increasing.

* `stepsKeep_proper` — whatever is requested, all names stay proper;
* `list_yields_iff` — what a store answers, by the entries of its directory;
* `mem_inventory_of_entries`, `pairwise_inventory`, `inventory_perm` — the names
  that are read back from a list of entries;
* `list_exact` — these put together.
-/

namespace FractalShader.Store

open FractalShader.Action FractalShader.Disk

variable {s : Store} {d d' : Disk} {dir : Place} {name : String} {files files' names : List String}

/-! ## Names of entries -/

/-- No request to a store gives an entry a name that none can have. -/
theorem stepsKeep_proper (s : Store) : s.StepsKeep Disk.Proper := by
  have hwrite : ∀ p text, (writeText p text).Preserves Disk.Proper := by
    intro p text d hd
    rcases disk_writeText_cases p text d with heq | ⟨dir, file, hlocate, hp⟩
    · rwa [heq]
    · refine hd.patched hp ?_
      intro f c hl
      rw [(eq_of_lookup_singleton hl).1]
      exact isEntryName_of_locate hlocate
  refine ⟨?_, ?_, fun _ _ _ => hwrite _ _, fun _ _ _ => hwrite _ _, fun _ _ _ => hwrite _ _⟩
  · intro d hd
    exact hd.made (s.made_rooted d)
  · intro p d hd
    rcases disk_removeIfPresent_cases p d with heq | ⟨dir, file, -, hp⟩
    · rwa [heq]
    · exact hd.patched hp fun f c hl => absurd (eq_of_lookup_singleton hl).2 (by simp)

/-! ## Names read back from entries -/

/-- The names of the presets whose documents are among `files`, in order. -/
def inventory (s : Store) (files : List String) : List String :=
  (files.filterMap fun file => s.nameForDocument (s.root.join file)).mergeSort
    fun a b => decide (a ≤ b)

theorem mem_inventory : name ∈ s.inventory files ↔
    ∃ file ∈ files, s.nameForDocument (s.root.join file) = some name := by
  rw [inventory, List.mem_mergeSort, List.mem_filterMap]

/-- The names that can be used and whose documents are there, and no others. -/
theorem mem_inventory_of_entries (hfiles : ∀ f ∈ files, IsEntryName f) :
    name ∈ s.inventory files ↔ PresetName.IsValid name ∧ s.documentFile name ∈ files := by
  rw [mem_inventory]
  constructor
  · rintro ⟨file, hfile, hname⟩
    obtain ⟨rfl, hv⟩ := (nameForDocument_join (hfiles file hfile)).mp hname
    exact ⟨hv, hfile⟩
  · rintro ⟨hv, hfile⟩
    exact ⟨s.documentFile name, hfile, (nameForDocument_join (hfiles _ hfile)).mpr ⟨rfl, hv⟩⟩

/-- Different entries give different names, since a document belongs to one preset; what is listed
of them therefore increases strictly. -/
theorem pairwise_inventory (hfiles : ∀ f ∈ files, IsEntryName f) (hnodup : files.Nodup) :
    (s.inventory files).Pairwise (· < ·) := by
  have hread : (files.filterMap fun file => s.nameForDocument (s.root.join file)).Nodup := by
    refine List.pairwise_filterMap.mpr (hnodup.imp_of_mem ?_)
    intro f g hf hg hne n hn m hm hnm
    apply hne
    rw [((nameForDocument_join (hfiles f hf)).mp hn).1,
      ((nameForDocument_join (hfiles g hg)).mp hm).1, hnm]
  exact pairwise_lt_ordered hread

/-- The order of the entries does not count. -/
theorem inventory_perm (h : files.Perm files') : s.inventory files = s.inventory files' :=
  ordered_congr (h.filterMap _)

/-! ## Listing -/

/-- What a store answers, and that it changes nothing. -/
theorem list_yields_iff : s.list.Yields d names d' ↔ d' = d ∧
    ((d.list s.root = .error .notFound ∧ names = []) ∨
      ∃ files, d.list s.root = .ok files ∧ names = s.inventory files) := by
  rw [Store.list, yields_bind]
  constructor
  · rintro ⟨r, d₁, hlook, hy⟩
    obtain ⟨rfl, rfl⟩ := yields_look.mp hlook
    split at hy
    · next hmissing =>
      obtain ⟨rfl, rfl⟩ := yields_pure.mp hy
      exact ⟨rfl, .inl ⟨hmissing, rfl⟩⟩
    · exact absurd hy yields_refuse
    · next files hfiles =>
      obtain ⟨rfl, rfl⟩ := yields_pure.mp hy
      exact ⟨rfl, .inr ⟨files, hfiles, rfl⟩⟩
  · rintro ⟨rfl, hnames⟩
    refine ⟨d'.list s.root, d', yields_look.mpr ⟨rfl, rfl⟩, ?_⟩
    rcases hnames with ⟨hmissing, rfl⟩ | ⟨files, hfiles, rfl⟩
    · rw [hmissing]
      exact yields_pure.mpr ⟨rfl, rfl⟩
    · rw [hfiles]
      exact yields_pure.mpr ⟨rfl, rfl⟩

theorem list_yields_of_find (h : d.find s.root = .ok (dir, .directory)) :
    s.list.Yields d (s.inventory (d.children dir)) d :=
  list_yields_iff.mpr ⟨rfl, .inr ⟨d.children dir, by rw [Disk.list, h], rfl⟩⟩

theorem list_yields_of_missing (h : d.find s.root = .error .notFound) : s.list.Yields d [] d :=
  list_yields_iff.mpr ⟨rfl, .inl ⟨by rw [Disk.list, h], rfl⟩⟩

/-- A store without a path lists nothing, whatever the working directory holds. -/
theorem list_of_no_root (h : s.root.text = "") (d : Disk) : s.list.Yields d [] d := by
  have hfault : s.root.fault? = some .notFound := by simp [Path.fault?, h]
  exact list_yields_of_missing (by rw [find, locate_of_fault hfault])

/-- **Listing is exact.**  Whatever the directory of the store holds and however it is spelled, the
names that are listed increase strictly, and they are those that can be used and have an entry for
their document; a directory that is missing holds none.  The order in which the entries are given
does not count. -/
theorem list_exact (s : Store) (d : Disk) :
    (∀ dir, d.Proper → d.find s.root = .ok (dir, .directory) →
      ∃ names, s.list.Yields d names d ∧ names.Pairwise (· < ·) ∧
        ∀ name, name ∈ names ↔
          PresetName.IsValid name ∧ d.node? (s.documentFile name :: dir) ≠ none) ∧
    (d.find s.root = .error .notFound → s.list.Yields d [] d) ∧
    ∀ d' files files', d.list s.root = .ok files → d'.list s.root = .ok files' →
      files.Perm files' → (s.list.run d).result = (s.list.run d').result := by
  refine ⟨?_, list_yields_of_missing, ?_⟩
  · intro dir hproper hfind
    have hfiles : ∀ f ∈ d.children dir, IsEntryName f :=
      fun f hf => hproper f dir (mem_children.mp hf)
    refine ⟨_, list_yields_of_find hfind, pairwise_inventory hfiles (d.children_nodup dir), ?_⟩
    intro name
    rw [mem_inventory_of_entries hfiles, mem_children]
  · intro d' files files' hfiles hfiles' hperm
    have hy : s.list.Yields d (s.inventory files) d :=
      list_yields_iff.mpr ⟨rfl, .inr ⟨files, hfiles, rfl⟩⟩
    have hy' : s.list.Yields d' (s.inventory files') d' :=
      list_yields_iff.mpr ⟨rfl, .inr ⟨files', hfiles', rfl⟩⟩
    rw [hy.1, hy'.1, inventory_perm hperm]

/-- The entries `files`, put into the directory `shaders` one after another. -/
def holding (files : List (String × Node)) : Disk :=
  files.foldl (fun d f => d.put f.1 ["shaders", "scratch"] f.2)
    ((Disk.empty ["scratch"]).put "shaders" ["scratch"] .directory)

theorem proper_holding {files : List (String × Node)} (h : ∀ f ∈ files, IsEntryName f.1) :
    (holding files).Proper := by
  have hempty : (Disk.empty ["scratch"]).Proper :=
    proper_empty fun name hname => List.mem_singleton.mp hname ▸ by decide
  exact List.foldlRecOn files _ (hempty.put (by decide) _ _)
    fun d hd f hf => hd.put (h f hf) _ _

/-- Documents among entries that are nearly such: a stem that is empty, padded or two names in one,
a directory, another extension. -/
def nearMisses : List (String × Node) :=
  [("Foo_Conf.json", .file .empty), ("_Conf.json", .file .empty), (" Pad_Conf.json", .file .empty),
    ("a\\b_Conf.json", .file .empty), ("Bar_Conf.json", .directory), ("Foo.ush", .file .empty)]

theorem list_exact_nearMisses :
    (∃ names, (list ⟨⟨"./shaders//"⟩, default⟩).Yields (holding nearMisses) names
        (holding nearMisses) ∧ names.Pairwise (· < ·) ∧ "Foo" ∈ names ∧ "Bar" ∈ names ∧
        "" ∉ names ∧ " Pad" ∉ names ∧ "a\\b" ∉ names) ∧
      (list ⟨⟨"./shaders//"⟩, default⟩).Yields (Disk.empty ["scratch"]) []
        (Disk.empty ["scratch"]) ∧
      ((list ⟨⟨"./shaders//"⟩, default⟩).run (holding nearMisses)).result =
        ((list ⟨⟨"./shaders//"⟩, default⟩).run (holding nearMisses.reverse)).result := by
  obtain ⟨hpresent, -, horder⟩ := list_exact ⟨⟨"./shaders//"⟩, default⟩ (holding nearMisses)
  obtain ⟨names, hy, hincreasing, hmem⟩ := hpresent ["shaders", "scratch"]
    (proper_holding (by decide)) rfl
  refine ⟨⟨names, hy, hincreasing, ?_⟩, ?_, ?_⟩
  · simp only [hmem]
    decide
  · exact (list_exact ⟨⟨"./shaders//"⟩, default⟩ (Disk.empty ["scratch"])).2.1 rfl
  · exact horder (holding nearMisses.reverse) _ _ rfl rfl (by decide)

end FractalShader.Store
