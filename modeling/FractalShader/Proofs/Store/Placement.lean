import FractalShader.Proofs.Store.Refusal
import FractalShader.Proofs.Store.Files

/-!
# Where the files of a preset lie

Whatever text a name is, either it is refused or its files are three different
entries of the store's directory: each path is that of the directory and one
ordinary component.  Files of different names are told apart by their extensions
and by what stands before them, and then the one way in which two presets can meet
is that the driver of `nSDF` is the distance fragment of `n`.

* `Path.IsEntryOf` — a path that adds one ordinary component to a directory;
* `paths_cases` — a name is refused, or its three files have paths;
* `file_eq_iff` — which files of two names are one;
* `artifacts_placed` — these about the paths themselves.
-/

namespace FractalShader

/-- The path is that of the directory `dir`, followed by exactly one component, which is neither
empty nor `.` nor `..`. -/
def Path.IsEntryOf (p dir : Path) : Prop :=
  ∃ file, IsEntryName file ∧ p.components = dir.components ++ [.normal file]

theorem Path.isEntryOf_join {dir : Path} {file : String} (h : IsEntryName file) :
    (dir.join file).IsEntryOf dir :=
  ⟨file, h, components_join h⟩

namespace Store

variable {s : Store}

/-- A name that cannot be used is refused for what is wrong with it, and any other has files. -/
theorem paths_cases (s : Store) (name : String) :
    (¬ PresetName.IsValid name ∧ ∃ fault, s.paths name = .error (.invalidName name fault)) ∨
      PresetName.IsValid name ∧ s.paths name = .ok (s.artifacts name) := by
  by_cases hv : PresetName.IsValid name
  · exact .inr ⟨hv, s.paths_of_isValid hv⟩
  · obtain ⟨fault, hfault⟩ := Option.ne_none_iff_exists'.mp hv
    refine .inl ⟨hv, fault, ?_⟩
    rw [paths, PresetName.check, hfault]

theorem isEntryOf_of_mem_artifacts (hs : s.settings.SlashFree) {name : String}
    (hv : PresetName.IsValid name) : ∀ p ∈ (s.artifacts name).all, p.IsEntryOf s.root := by
  rw [all_artifacts, List.forall_mem_map]
  exact fun f hf => Path.isEntryOf_join (isEntryName_of_mem_files hs hv f hf)

/-! ## Two names -/

/-- Of the nine pairs of files of two names, only the driver of the one and the distance fragment
of the other can be the same file. -/
theorem file_eq_iff (hs : s.settings.Plain) {x y f g : String} (hne : x ≠ y) (hf : f ∈ s.files x)
    (hg : g ∈ s.files y) : f = g ↔
      (x = Fragment.sdfStem y ∧ f = s.driverFile x ∧ g = s.sdfFile y) ∨
        (y = Fragment.sdfStem x ∧ f = s.sdfFile x ∧ g = s.driverFile y) := by
  constructor
  · rintro rfl
    rcases shared_file hs hne hf hg with ⟨hy, rfl⟩ | ⟨hx, rfl⟩
    · exact .inr ⟨hy, rfl, (driverFile_eq_sdfFile.mpr hy).symm⟩
    · exact .inl ⟨hx, rfl, driverFile_eq_sdfFile.mpr hx⟩
  · rintro (⟨hx, rfl, rfl⟩ | ⟨hy, rfl, rfl⟩)
    · exact driverFile_eq_sdfFile.mpr hx
    · exact (driverFile_eq_sdfFile.mpr hy).symm

/-- The same about the paths, which are compared by their components. -/
theorem artifact_eq_iff (hs : s.settings.Plain) {x y : String} (hne : x ≠ y)
    (hx : PresetName.IsValid x) (hy : PresetName.IsValid y) :
    ∀ p ∈ (s.artifacts x).all, ∀ q ∈ (s.artifacts y).all, p.components = q.components ↔
      (x = Fragment.sdfStem y ∧ p = (s.artifacts x).driver ∧ q = (s.artifacts y).sdf) ∨
        (y = Fragment.sdfStem x ∧ p = (s.artifacts x).sdf ∧ q = (s.artifacts y).driver) := by
  have hfx := isEntryName_of_mem_files hs.slashFree hx
  have hfy := isEntryName_of_mem_files hs.slashFree hy
  -- two entries of one directory have the same path only under the same name
  have hjoin : ∀ {f g}, IsEntryName f → IsEntryName g → (s.root.join f = s.root.join g ↔ f = g) :=
    fun hf hg => ⟨fun h => (Path.components_join_inj hf hg).mp (congrArg Path.components h),
      congrArg s.root.join⟩
  rw [all_artifacts, all_artifacts, List.forall_mem_map]
  intro f hf
  rw [List.forall_mem_map]
  intro g hg
  rw [Path.components_join_inj (hfx f hf) (hfy g hg), file_eq_iff hs hne hf hg]
  simp only [artifacts, hjoin (hfx f hf) (hfx _ (s.driverFile_mem_files x)),
    hjoin (hfx f hf) (hfx _ (s.sdfFile_mem_files x)),
    hjoin (hfy g hg) (hfy _ (s.driverFile_mem_files y)),
    hjoin (hfy g hg) (hfy _ (s.sdfFile_mem_files y))]

/-- **The files stay in the directory and meet one way only.**  Every text is refused as a name, or
gives three different entries of the store's directory.  When the extensions are different and hold
no dot, two names have a file in common exactly when one is the other with `SDF` appended, and that
file is the driver of the longer name and the distance fragment of the shorter one. -/
theorem artifacts_placed (hs : s.settings.SlashFree) :
    (∀ name, (¬ PresetName.IsValid name ∧
        ∃ fault, s.paths name = .error (.invalidName name fault)) ∨
      PresetName.IsValid name ∧ ∃ a, s.paths name = .ok a ∧ (∀ p ∈ a.all, p.IsEntryOf s.root) ∧
        a.all.Pairwise fun p q => p.components ≠ q.components) ∧
    (s.settings.Plain → ∀ x y a b, x ≠ y → s.paths x = .ok a → s.paths y = .ok b →
      ((∃ p ∈ a.all, ∃ q ∈ b.all, p.components = q.components) ↔
        x = Fragment.sdfStem y ∨ y = Fragment.sdfStem x) ∧
      ∀ p ∈ a.all, ∀ q ∈ b.all, p.components = q.components ↔
        (x = Fragment.sdfStem y ∧ p = a.driver ∧ q = b.sdf) ∨
          (y = Fragment.sdfStem x ∧ p = a.sdf ∧ q = b.driver)) := by
  constructor
  · intro name
    rcases s.paths_cases name with hrefused | ⟨hv, hpaths⟩
    · exact .inl hrefused
    · exact .inr ⟨hv, _, hpaths, isEntryOf_of_mem_artifacts hs hv, pairwise_artifacts hs hv⟩
  · intro hplain x y a b hne ha hb
    obtain ⟨hx, rfl⟩ := s.paths_eq_ok_iff.mp ha
    obtain ⟨hy, rfl⟩ := s.paths_eq_ok_iff.mp hb
    have hpairs := artifact_eq_iff hplain hne hx hy
    refine ⟨⟨?_, ?_⟩, hpairs⟩
    · rintro ⟨p, hp, q, hq, heq⟩
      exact ((hpairs p hp q hq).mp heq).imp And.left And.left
    · rintro (hlong | hlong)
      · exact ⟨_, (s.artifacts x).driver_mem_all, _, (s.artifacts y).sdf_mem_all,
          (hpairs _ (s.artifacts x).driver_mem_all _ (s.artifacts y).sdf_mem_all).mpr
            (.inl ⟨hlong, rfl, rfl⟩)⟩
      · exact ⟨_, (s.artifacts x).sdf_mem_all, _, (s.artifacts y).driver_mem_all,
          (hpairs _ (s.artifacts x).sdf_mem_all _ (s.artifacts y).driver_mem_all).mpr
            (.inr ⟨hlong, rfl, rfl⟩)⟩

theorem artifacts_placed_foo :
    (default : Settings).SlashFree ∧ (default : Settings).Plain ∧
      (∃ a, paths ⟨⟨"..//shaders/."⟩, default⟩ ".Foo." = .ok a ∧
        ∀ p ∈ a.all, p.IsEntryOf ⟨"..//shaders/."⟩) ∧
      (∃ fault, paths ⟨⟨"..//shaders/."⟩, default⟩ ".." = .error (.invalidName ".." fault)) ∧
      (artifacts ⟨⟨"..//shaders/."⟩, default⟩ "FooSDF").driver.components =
        (artifacts ⟨⟨"..//shaders/."⟩, default⟩ "Foo").sdf.components ∧
      ∀ p ∈ (artifacts ⟨⟨"..//shaders/."⟩, default⟩ "Foo").all,
        ∀ q ∈ (artifacts ⟨⟨"..//shaders/."⟩, default⟩ "Foo_Conf").all,
          p.components ≠ q.components := by
  obtain ⟨hplaced, hshared⟩ :=
    artifacts_placed (s := ⟨⟨"..//shaders/."⟩, default⟩) Settings.plain_default.slashFree
  have hpairs := fun {x y} hne hx hy => hshared Settings.plain_default x y _ _ hne
    (paths_of_isValid _ hx) (paths_of_isValid _ hy)
  refine ⟨Settings.plain_default.slashFree, Settings.plain_default, ?_, ?_, ?_, ?_⟩
  · rcases hplaced ".Foo." with ⟨hbad, -⟩ | ⟨-, a, ha, hentries, -⟩
    · exact absurd (by decide) hbad
    · exact ⟨a, ha, hentries⟩
  · rcases hplaced ".." with ⟨-, hrefused⟩ | ⟨hv, -⟩
    · exact hrefused
    · exact absurd hv (by decide)
  · exact ((hpairs (x := "FooSDF") (y := "Foo") (by decide) (by decide) (by decide)).2
      _ (ArtifactPaths.driver_mem_all _) _ (ArtifactPaths.sdf_mem_all _)).mpr (.inl ⟨rfl, rfl, rfl⟩)
  · intro p hp q hq heq
    have hneighbours := (hpairs (x := "Foo") (y := "Foo_Conf") (by decide) (by decide)
      (by decide)).1.mp ⟨p, hp, q, hq, heq⟩
    exact absurd hneighbours (by decide)

end Store

end FractalShader
