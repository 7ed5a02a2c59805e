import FractalShader.Proofs.Path.Join
import FractalShader.Store

/-!
# The files of a preset

When extensions hold no slash, the files of a preset are entries of the store's
directory, and they are three different ones whatever the extensions are.  With
two plain extensions, the only file that belongs to two names is the distance
fragment of `n`, which is the driver of `nSDF`.

* `isEntryName_driverFile`, `isEntryName_sdfFile`, `isEntryName_documentFile` —
  each file name is the name of an entry;
* `driverFile_ne_sdfFile`, `driverFile_ne_documentFile`,
  `sdfFile_ne_documentFile` — the three files of one name are different;
* `shared_file` — which files different names share;
* `nameForDocument_join` — a document is known by its name.
-/

namespace FractalShader

/-- The extensions can stand in the name of an entry. -/
structure Settings.SlashFree (settings : Settings) : Prop where
  fragment : '/' ∉ settings.fragmentExt.toList
  document : '/' ∉ settings.documentExt.toList

/-- Two different extensions that hold neither a dot nor a slash. -/
structure Settings.Plain (settings : Settings) : Prop where
  distinct : settings.fragmentExt ≠ settings.documentExt
  fragment_dot : '.' ∉ settings.fragmentExt.toList
  fragment_slash : '/' ∉ settings.fragmentExt.toList
  document_dot : '.' ∉ settings.documentExt.toList
  document_slash : '/' ∉ settings.documentExt.toList

theorem Settings.Plain.slashFree {settings : Settings} (h : settings.Plain) :
    settings.SlashFree :=
  ⟨h.fragment_slash, h.document_slash⟩

theorem Settings.plain_default : (default : Settings).Plain := by
  constructor <;> decide

/-- A name that can be used holds no null. -/
theorem PresetName.IsValid.null_not_mem {name : String} (h : PresetName.IsValid name) :
    '\x00' ∉ name.toList := by
  intro hs
  unfold IsValid fault? at h
  grind

theorem PresetName.IsValid.ne_here {name : String} (h : PresetName.IsValid name) :
    name ≠ "." := by
  rintro rfl
  exact absurd h (by decide)

/-! ## Names with an extension -/

/-- What can stand before the extension of a file name. -/
structure IsStem (stem : String) : Prop where
  ne_empty : stem ≠ ""
  ne_here : stem ≠ "."
  no_slash : '/' ∉ stem.toList

theorem PresetName.IsValid.isStem {name : String} (h : PresetName.IsValid name) : IsStem name :=
  ⟨h.ne_empty, h.ne_here, h.slash_not_mem⟩

/-- With something appended a stem stays one. -/
theorem IsStem.append {stem suffix : String} (h : IsStem stem) (hne : suffix ≠ "")
    (hs : '/' ∉ suffix.toList) : IsStem (stem ++ suffix) := by
  have hlen : 2 ≤ (stem ++ suffix).toList.length := by
    have hstem := List.length_pos_iff.mpr fun hc => h.ne_empty (String.toList_inj.mp hc)
    have hsuffix := List.length_pos_iff.mpr fun hc => hne (String.toList_inj.mp hc)
    rw [String.toList_append, List.length_append]
    omega
  refine ⟨?_, ?_, ?_⟩
  · intro hc
    rw [hc] at hlen
    exact absurd hlen (by decide)
  · intro hc
    rw [hc] at hlen
    exact absurd hlen (by decide)
  · rw [String.toList_append, List.mem_append]
    exact not_or.mpr ⟨h.no_slash, hs⟩

theorem Fragment.utf8ByteSize_sdfStem (n : String) :
    (Fragment.sdfStem n).utf8ByteSize = n.utf8ByteSize + 3 := by
  rw [Fragment.sdfStem, String.utf8ByteSize_append]
  rfl

theorem PresetName.IsValid.isStem_sdf {name : String} (h : PresetName.IsValid name) :
    IsStem (Fragment.sdfStem name) :=
  h.isStem.append (by decide) (by decide)

theorem PresetName.IsValid.isStem_conf {name : String} (h : PresetName.IsValid name) :
    IsStem (name ++ "_Conf") :=
  h.isStem.append (by decide) (by decide)

/-- A name and an extension are read off a file name from its last dot. -/
theorem dot_append_inj {a b e f : List Char} (he : '.' ∉ e) (hf : '.' ∉ f)
    (h : a ++ '.' :: e = b ++ '.' :: f) : a = b ∧ e = f := by
  have hfields : fields '.' a ++ [e] = fields '.' b ++ [f] := by
    rw [← fields_of_not_mem he, ← fields_of_not_mem hf, ← fields_append_separator, h,
      fields_append_separator]
  have hef : e = f := by
    have hlast := congrArg List.getLast? hfields
    rw [List.getLast?_concat, List.getLast?_concat] at hlast
    exact Option.some.inj hlast
  subst hef
  exact ⟨List.append_cancel_right h, rfl⟩

/-- A stem with an extension is the name of an entry. -/
theorem isEntryName_dot {stem ext : String} (h : IsStem stem) (hext : '/' ∉ ext.toList) :
    IsEntryName (stem ++ "." ++ ext) := by
  have hlist : (stem ++ "." ++ ext).toList = stem.toList ++ '.' :: ext.toList := by simp
  have hnil : stem.toList ≠ [] := fun hc => h.ne_empty (String.toList_inj.mp hc)
  obtain ⟨c, cs, hcs⟩ := List.exists_cons_of_ne_nil hnil
  refine ⟨?_, ?_, ?_, ?_⟩
  · intro hc
    have := congrArg String.toList hc
    rw [hlist] at this
    simp at this
  · intro hc
    rw [hlist] at hc
    rcases List.mem_append.mp hc with hc | hc
    · exact h.no_slash hc
    · rcases List.mem_cons.mp hc with hc | hc
      · exact absurd hc (by decide)
      · exact hext hc
  · intro hc
    have hdot := congrArg String.toList hc
    rw [hlist, hcs] at hdot
    simp at hdot
  · intro hc
    -- the only stem of two dots is a single one
    have hdots := congrArg String.toList hc
    rw [hlist, hcs] at hdots
    cases cs with
    | nil =>
      simp only [List.cons_append, List.nil_append] at hdots
      have h1 : c = '.' := (List.cons.inj hdots).1
      rw [h1] at hcs
      exact h.ne_here (String.toList_inj.mp hcs)
    | cons c' cs =>
      have hlen := congrArg List.length hdots
      simp at hlen

namespace Store

variable {s : Store}

theorem toList_driverFile (s : Store) (n : String) :
    (s.driverFile n).toList = n.toList ++ '.' :: s.settings.fragmentExt.toList := by
  simp [driverFile]

theorem toList_documentFile (s : Store) (n : String) :
    (s.documentFile n).toList = (n ++ "_Conf").toList ++ '.' :: s.settings.documentExt.toList := by
  simp [documentFile]

/-- The distance fragment of `n` is the driver of `nSDF`. -/
theorem sdfFile_eq (s : Store) (n : String) : s.sdfFile n = s.driverFile (Fragment.sdfStem n) := rfl

/-! ## With the default settings -/

theorem driverFile_of_default (h : s.settings = default) (n : String) :
    s.driverFile n = n ++ ".ush" := by
  rw [driverFile, h, String.append_assoc]
  rfl

theorem documentFile_of_default (h : s.settings = default) (n : String) :
    s.documentFile n = n ++ "_Conf.json" := by
  rw [documentFile, h, String.append_assoc, String.append_assoc]
  rfl

theorem utf8ByteSize_driverFile (h : s.settings = default) (n : String) :
    (s.driverFile n).utf8ByteSize = n.utf8ByteSize + 4 := by
  rw [driverFile_of_default h, String.utf8ByteSize_append]
  rfl

theorem utf8ByteSize_documentFile (h : s.settings = default) (n : String) :
    (s.documentFile n).utf8ByteSize = n.utf8ByteSize + 10 := by
  rw [documentFile_of_default h, String.utf8ByteSize_append]
  rfl

/-! ## Entries -/

theorem isEntryName_driverFile (h : s.settings.SlashFree) {n : String}
    (hn : PresetName.IsValid n) : IsEntryName (s.driverFile n) :=
  isEntryName_dot hn.isStem h.fragment

theorem isEntryName_sdfFile (h : s.settings.SlashFree) {n : String}
    (hn : PresetName.IsValid n) : IsEntryName (s.sdfFile n) :=
  isEntryName_dot hn.isStem_sdf h.fragment

theorem isEntryName_documentFile (h : s.settings.SlashFree) {n : String}
    (hn : PresetName.IsValid n) : IsEntryName (s.documentFile n) :=
  isEntryName_dot hn.isStem_conf h.document

/-! ## The files of one name -/

theorem driverFile_ne_sdfFile (s : Store) (n : String) : s.driverFile n ≠ s.sdfFile n := by
  intro h
  have hlen := congrArg (fun t => t.toList.length) h
  simp [sdfFile_eq, toList_driverFile, Fragment.sdfStem] at hlen

theorem driverFile_ne_documentFile (s : Store) (n : String) :
    s.driverFile n ≠ s.documentFile n := by
  intro h
  have hlist := congrArg String.toList h
  rw [toList_driverFile, toList_documentFile, String.toList_append, List.append_assoc] at hlist
  have htail := List.append_cancel_left hlist
  simp at htail

theorem sdfFile_ne_documentFile (s : Store) (n : String) : s.sdfFile n ≠ s.documentFile n := by
  intro h
  have hlist := congrArg String.toList h
  rw [sdfFile_eq, toList_driverFile, toList_documentFile, Fragment.sdfStem, String.toList_append,
    String.toList_append, List.append_assoc, List.append_assoc] at hlist
  have htail := List.append_cancel_left hlist
  simp at htail

/-! ## The files of two names -/

theorem driverFile_inj {n m : String} : s.driverFile n = s.driverFile m ↔ n = m := by
  rw [driverFile, driverFile, String.append_left_inj, String.append_left_inj]

theorem sdfStem_inj {n m : String} : Fragment.sdfStem n = Fragment.sdfStem m ↔ n = m :=
  String.append_left_inj "SDF"

theorem sdfStem_ne (n : String) : Fragment.sdfStem n ≠ n := by
  intro h
  have hlen := congrArg (fun t => t.toList.length) h
  simp [Fragment.sdfStem] at hlen

theorem sdfFile_inj {n m : String} : s.sdfFile n = s.sdfFile m ↔ n = m := by
  rw [sdfFile_eq, sdfFile_eq, driverFile_inj, sdfStem_inj]

theorem documentFile_inj {n m : String} : s.documentFile n = s.documentFile m ↔ n = m := by
  rw [documentFile, documentFile, String.append_left_inj, String.append_left_inj,
    String.append_left_inj]

theorem driverFile_eq_sdfFile {n m : String} :
    s.driverFile n = s.sdfFile m ↔ n = Fragment.sdfStem m := by
  rw [sdfFile_eq, driverFile_inj]

theorem driverFile_ne_documentFile_of_plain (h : s.settings.Plain) (n m : String) :
    s.driverFile n ≠ s.documentFile m := by
  intro hc
  have hlist := congrArg String.toList hc
  rw [toList_driverFile, toList_documentFile] at hlist
  have hext := (dot_append_inj h.fragment_dot h.document_dot hlist).2
  exact h.distinct (String.toList_inj.mp hext)

theorem sdfFile_ne_documentFile_of_plain (h : s.settings.Plain) (n m : String) :
    s.sdfFile n ≠ s.documentFile m :=
  driverFile_ne_documentFile_of_plain h (Fragment.sdfStem n) m

/-- The three files of the preset `name`. -/
def files (s : Store) (name : String) : List String :=
  [s.driverFile name, s.sdfFile name, s.documentFile name]

theorem driverFile_mem_files (s : Store) (name : String) : s.driverFile name ∈ s.files name :=
  List.mem_cons_self

theorem sdfFile_mem_files (s : Store) (name : String) : s.sdfFile name ∈ s.files name :=
  List.mem_cons_of_mem _ List.mem_cons_self

theorem documentFile_mem_files (s : Store) (name : String) :
    s.documentFile name ∈ s.files name :=
  List.mem_cons_of_mem _ (List.mem_cons_of_mem _ List.mem_cons_self)

theorem nodup_files (s : Store) (name : String) : (s.files name).Nodup := by
  simp [files, driverFile_ne_sdfFile, driverFile_ne_documentFile, sdfFile_ne_documentFile]

theorem isEntryName_of_mem_files (hs : s.settings.SlashFree) {name : String}
    (hn : PresetName.IsValid name) : ∀ f ∈ s.files name, IsEntryName f := by
  intro f hf
  simp only [files, List.mem_cons, List.not_mem_nil, or_false] at hf
  rcases hf with rfl | rfl | rfl
  · exact isEntryName_driverFile hs hn
  · exact isEntryName_sdfFile hs hn
  · exact isEntryName_documentFile hs hn

/-- The two fragments of the preset `name`, which are written together. -/
def fragments (s : Store) (name : String) : List String := [s.driverFile name, s.sdfFile name]

theorem mem_files_of_mem_fragments {n f : String} (h : f ∈ s.fragments n) : f ∈ s.files n :=
  List.mem_append_left [s.documentFile n] h

theorem documentFile_not_mem_fragments (s : Store) (n : String) :
    s.documentFile n ∉ s.fragments n := by
  intro h
  simp only [fragments, List.mem_cons, List.not_mem_nil, or_false] at h
  rcases h with h | h
  · exact s.driverFile_ne_documentFile n h.symm
  · exact s.sdfFile_ne_documentFile n h.symm

/-- One of the two names is the other with `SDF` appended, so their presets would share a
fragment. -/
def Neighbours (n m : String) : Prop := n = Fragment.sdfStem m ∨ m = Fragment.sdfStem n

theorem Neighbours.ne {n m : String} (h : Neighbours n m) : m ≠ n := by
  rcases h with rfl | rfl
  · exact (sdfStem_ne m).symm
  · exact sdfStem_ne n

/-- No fragment is the document of a neighbour, whatever the extensions are. -/
theorem Neighbours.documentFile_not_mem {n m : String} (h : Neighbours n m) :
    s.documentFile m ∉ s.files n := by
  intro hmem
  simp only [files, List.mem_cons, List.not_mem_nil, or_false] at hmem
  rcases hmem with hmem | hmem | hmem
  · have hlist := congrArg String.toList hmem
    rcases h with rfl | rfl <;> simp [documentFile, driverFile, Fragment.sdfStem] at hlist
  · have hlist := congrArg String.toList hmem
    rcases h with rfl | rfl <;> simp [documentFile, sdfFile, Fragment.sdfStem] at hlist
  · exact h.ne (documentFile_inj.mp hmem)

/-- Two names share a file only when one is the other with `SDF` appended, and then it is the
distance fragment of the shorter one. -/
theorem shared_file (hs : s.settings.Plain) {n m : String} (hne : m ≠ n) {f : String}
    (hm : f ∈ s.files m) (hn : f ∈ s.files n) :
    (n = Fragment.sdfStem m ∧ f = s.sdfFile m) ∨ (m = Fragment.sdfStem n ∧ f = s.driverFile m) := by
  simp only [files, List.mem_cons, List.not_mem_nil, or_false] at hm hn
  rcases hm with rfl | rfl | rfl
  · rcases hn with h | h | h
    · exact absurd (driverFile_inj.mp h) hne
    · exact .inr ⟨driverFile_eq_sdfFile.mp h, rfl⟩
    · exact absurd h (driverFile_ne_documentFile_of_plain hs m n)
  · rcases hn with h | h | h
    · exact .inl ⟨driverFile_eq_sdfFile.mp h.symm, rfl⟩
    · exact absurd (sdfFile_inj.mp h) hne
    · exact absurd h (sdfFile_ne_documentFile_of_plain hs m n)
  · rcases hn with h | h | h
    · exact absurd h.symm (driverFile_ne_documentFile_of_plain hs n m)
    · exact absurd h.symm (sdfFile_ne_documentFile_of_plain hs n m)
    · exact absurd (documentFile_inj.mp h) hne

/-- The names whose driver is a file of the preset `n`. -/
theorem driverFile_mem_files_iff (hs : s.settings.Plain) {n m : String} :
    s.driverFile m ∈ s.files n ↔ m = n ∨ m = Fragment.sdfStem n := by
  simp [files, driverFile_inj, driverFile_eq_sdfFile, driverFile_ne_documentFile_of_plain hs]

/-- Documents belong to one name only. -/
theorem documentFile_not_mem_files (hs : s.settings.Plain) {n m : String} (hne : m ≠ n) :
    s.documentFile m ∉ s.files n := by
  intro h
  simp only [files, List.mem_cons, List.not_mem_nil, or_false] at h
  rcases h with h | h | h
  · exact driverFile_ne_documentFile_of_plain hs n m h.symm
  · exact sdfFile_ne_documentFile_of_plain hs n m h.symm
  · exact hne (documentFile_inj.mp h)

/-! ## The paths of the files -/

end Store

/-- The paths of the three files of a preset. -/
def ArtifactPaths.all (a : ArtifactPaths) : List Path := [a.driver, a.sdf, a.document]

theorem ArtifactPaths.driver_mem_all (a : ArtifactPaths) : a.driver ∈ a.all := List.mem_cons_self

theorem ArtifactPaths.sdf_mem_all (a : ArtifactPaths) : a.sdf ∈ a.all :=
  List.mem_cons_of_mem _ List.mem_cons_self

namespace Store

variable {s : Store}

theorem all_artifacts (s : Store) (name : String) :
    (s.artifacts name).all = (s.files name).map s.root.join := rfl

/-- No two of the three paths have the same components, whatever the extensions are. -/
theorem pairwise_artifacts (hs : s.settings.SlashFree) {name : String}
    (hv : PresetName.IsValid name) :
    (s.artifacts name).all.Pairwise fun p q => p.components ≠ q.components := by
  have hnames := isEntryName_of_mem_files hs hv
  rw [all_artifacts]
  refine List.pairwise_map.mpr ((s.nodup_files name).imp_of_mem ?_)
  intro f g hf hg hne heq
  exact hne ((Path.components_join_inj (hnames f hf) (hnames g hg)).mp heq)

theorem nodup_artifacts (hs : s.settings.SlashFree) {name : String}
    (hv : PresetName.IsValid name) : (s.artifacts name).all.Nodup :=
  (pairwise_artifacts hs hv).imp fun hne heq => hne (congrArg Path.components heq)

/-! ## Documents by name -/

/-- An entry of the store's directory is a document exactly when it has the name of one. -/
theorem nameForDocument_of_nameIn? {p : Path} {file n : String}
    (hp : s.root.nameIn? p = some file) :
    s.nameForDocument p = some n ↔ file = s.documentFile n ∧ PresetName.IsValid n := by
  simp only [nameForDocument, hp, Option.bind_eq_bind, Option.bind_some,
    Option.bind_eq_some_iff, dropSuffix?_eq_some_iff]
  constructor
  · rintro ⟨stem, rfl, name, rfl, h⟩
    split at h
    · next hv =>
      cases h
      exact ⟨(String.append_assoc ..).symm, hv⟩
    · exact absurd h (by simp)
  · rintro ⟨rfl, hv⟩
    exact ⟨n ++ "_Conf", String.append_assoc .., n, rfl, if_pos hv⟩

theorem nameForDocument_join {file n : String} (hf : IsEntryName file) :
    s.nameForDocument (s.root.join file) = some n ↔
      file = s.documentFile n ∧ PresetName.IsValid n :=
  nameForDocument_of_nameIn? (Path.nameIn?_join hf)

end Store

end FractalShader
