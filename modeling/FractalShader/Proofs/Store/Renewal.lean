import FractalShader.Proofs.Store.Consistency
import FractalShader.Proofs.Store.Repetition

/-!
# Publishing again

A preset that was published can be regenerated and published again, any number of
times, unless its name is among the longest that can be used.  Before fragments are
written, the document of the name with `SDF` appended is looked for, and its file name
is three bytes longer than that of any file of the preset itself.  Where it is too long
to be looked up, the preset is refused; but in a directory that is yet to be made
nothing is looked up, so there it is published once.

* `publish_yields_of_writable` — a publication that can be made is made;
* `Renewable` — a preset that is stored and passes the check for collisions;
  `Renewable.renew` is one step from there, `Renewable.renews` any number of them, and
  `renewable_of_publish` says how to get there;
* `Awaits`, `Blocked` — what is supposed of a directory before a publication, and what
  stands in its way;
* `publish_yields_iff_of_awaits`, `renew_yields_iff_of_awaits`,
  `staysPublishable_iff_of_awaits` — when a publication is made once, when another follows,
  and when any number of them do;
* `staysPublishable_iff` — all three, by the size of the name;
* `letters_published_once` — a name that is published once.
-/

namespace FractalShader

open FractalShader.Action FractalShader.Disk

/-- There is room after the path for the name of an entry, even for one that is three bytes too
long. -/
structure Path.Roomy (p : Path) : Prop where
  no_null : '\x00' ∉ p.text.toList
  room : p.text.utf8ByteSize + 1 + (Disk.greatestPiece + 3) ≤ Disk.greatestPath

namespace Store

variable {s : Store} {d d' d₀ : Disk} {dir : Place} {name : String} {c : Config} {g : Generated}

/-! ## A publication that can be made -/

/-- A configuration that passes every check is published where its three files can be written, once
the directory of the store is made. -/
theorem publish_yields_of_writable (hs : s.settings.SlashFree) (hv : PresetName.IsValid c.name)
    (hknown : c.hasUnknown = false) (hcheck : (s.checkCollision c.name).Yields d () d)
    (hmade : s.ensureRoot.Yields d () d₀) (hd : d₀.directoryAt s.root = .ok dir)
    (hw : s.Writable d₀ dir c.name) (strict : Bool) :
    ∃ p d', (s.publish c strict).Yields d p d' := by
  obtain ⟨g, hg⟩ : ∃ g, Fragment.generate c s.settings strict = .ok g :=
    Fragment.generate_ok_iff.mpr fun _ => hknown
  rcases (s.writeFragments c.name g.driver g.sdf).yields_or_fails d with
    ⟨paths, hwrite⟩ | ⟨e, hfail⟩
  · obtain ⟨-, dir', hf⟩ := writeFragments_yields hs hwrite
    obtain ⟨rfl, -⟩ := ensureRoot_yields hmade
    obtain rfl := Except.ok.inj (hd.symm.trans hf.root)
    generalize ((s.writeFragments c.name g.driver g.sdf).run d).disk = d₁ at hwrite hf
    rcases (s.save c).yields_or_fails d₁ with ⟨q, hsave⟩ | ⟨e, hfail⟩
    · refine ⟨⟨paths, g⟩, ((s.save c).run d₁).disk, ?_⟩
      unfold publish
      simp only [hknown, Bool.false_eq_true, if_false]
      refine yields_bind.mpr ⟨g, d, generate_of_ok hg, ?_⟩
      refine yields_bind.mpr ⟨paths, _, hwrite, yields_bind.mpr ⟨q, _, hsave, ?_⟩⟩
      exact yields_bind.mpr ⟨(), _, yields_emit.mpr rfl, yields_pure.mpr ⟨rfl, rfl⟩⟩
    · exfalso
      apply (save_fails hs hv hknown (hf.patched.directoryAt hd) hfail).2
      exact hf.patched.replaceable_iff.mpr hw.document
  · exact absurd hfail (writeFragments_not_fails_of_made hs hv hcheck hmade hd hw.driver hw.sdf)

/-- The document of a shorter name can be looked up when that of a longer one can. -/
theorem entryFault?_documentFile_of_sdfStem (hs : s.settings.SlashFree)
    (hv : PresetName.IsValid name)
    (h : s.root.entryFault? (s.documentFile (Fragment.sdfStem name)) = none) :
    s.root.entryFault? (s.documentFile name) = none := by
  refine Path.entryFault?_of_subset (isEntryName_documentFile hs hv.sdfStem)
    (isEntryName_documentFile hs hv) ?_ ?_ h
  · intro x hx
    simp only [documentFile, Fragment.sdfStem, String.toList_append, List.mem_append] at hx ⊢
    rcases hx with ((hx | hx) | hx) | hx
    · exact .inl (.inl (.inl (.inl hx)))
    · exact .inl (.inl (.inr hx))
    · exact .inl (.inr hx)
    · exact .inr hx
  · simp only [documentFile, Fragment.sdfStem, String.utf8ByteSize_append]
    omega

/-- A name passes the check for collisions when no neighbour has a document and the longer one can
be looked up. -/
theorem checkCollision_yields_of_alone (hs : s.settings.SlashFree) (hv : PresetName.IsValid name)
    (hd : d.directoryAt s.root = .ok dir)
    (halone : ∀ m, PresetName.IsValid m → Neighbours name m →
      d.node? (s.documentFile m :: dir) = none)
    (hlong : s.root.entryFault? (s.documentFile (Fragment.sdfStem name)) = none) :
    (s.checkCollision name).Yields d () d := by
  refine (checkCollision_yields_iff_neighbours hv).mpr fun m hm hn => ?_
  refine (exists?_join_eq_ok_iff hd (isEntryName_documentFile hs hm)).mpr ⟨?_, ?_⟩
  · rcases hn with rfl | rfl
    · have hname := entryFault?_documentFile_of_sdfStem hs hv hlong
      exact entryFault?_documentFile_of_sdfStem hs hm hname
    · exact hlong
  · rw [halone m hm hn]
    rfl

/-- A name whose longer neighbour cannot be looked up is refused in a directory that is there. -/
theorem entryFault?_of_checkCollision (hs : s.settings.SlashFree) (hv : PresetName.IsValid name)
    (hd : d.directoryAt s.root = .ok dir) (h : (s.checkCollision name).Yields d () d) :
    s.root.entryFault? (s.documentFile (Fragment.sdfStem name)) = none := by
  obtain ⟨-, hstem⟩ := (checkCollision_yields_iff hv).mp h
  exact ((exists?_join_eq_ok_iff hd (isEntryName_documentFile hs hv.sdfStem)).mp hstem).1

/-! ## Any number of times -/

/-- One way to write the fragments of a preset again. -/
inductive Renewal where
  | regenerate (strict : Bool)
  | publish (strict : Bool)

/-- Write the fragments of a preset again. -/
def renew (s : Store) (c : Config) : Renewal → Action Published
  | .regenerate strict => s.regenerate c.name strict
  | .publish strict => s.publish c strict

/-- All of these succeed, one after the other. -/
def Renews (s : Store) (c : Config) : List Renewal → Disk → Prop
  | [], _ => True
  | r :: rs, d => ∃ p d', (s.renew c r).Yields d p d' ∧ s.Renews c rs d'

/-- The configuration is published, and from then on its preset can be renewed as often as one
likes. -/
def StaysPublishable (s : Store) (d : Disk) (c : Config) : Prop :=
  ∀ strict, ∃ p d', (s.publish c strict).Yields d p d' ∧ ∀ rs, s.Renews c rs d'

/-- The preset is stored, and its name passes the check for collisions. -/
structure Renewable (s : Store) (d : Disk) (dir : Place) (c : Config) (g : Generated) : Prop where
  stored : s.Stored d dir c g
  separate : (s.checkCollision c.name).Yields d () d

/-- Only what stands at each place counts. -/
theorem Renewable.sameTree (hs : s.settings.SlashFree) (h : s.Renewable d dir c g)
    (hsame : d.SameTree d') : s.Renewable d' dir c g := by
  have hp := hsame.patched dir
  refine ⟨h.stored.patched hp fun _ _ => rfl,
    checkCollision_yields_congr h.stored.valid (fun m hm _ => ?_) h.separate⟩
  exact find_join_congr h.stored.root (hp.directoryAt h.stored.root)
    (isEntryName_documentFile hs hm) (hsame.node _)

/-- **A renewal succeeds and changes nothing.** -/
theorem Renewable.renew (hs : s.settings.SlashFree) (h : s.Renewable d dir c g) (r : Renewal) :
    ∃ p d', (s.renew c r).Yields d p d' ∧ d.SameTree d' := by
  have hwritable := h.stored.writable
  cases r with
  | regenerate strict =>
    have hr : s.Regenerable strict d dir c.name g :=
      ⟨h.stored.root, ⟨c, h.stored.readDocument hs, h.stored.generated strict⟩, h.separate,
        hwritable.driver, hwritable.sdf⟩
    have hup : s.UpToDate strict d dir c.name g := ⟨hr, h.stored.holdsFragments⟩
    obtain ⟨d', hy, hsame⟩ := hup.regenerate hs
    exact ⟨_, d', hy, hsame⟩
  | publish strict =>
    have hmade := ensureRoot_of_replaceable h.stored.root
      (isEntryName_driverFile hs h.stored.valid) hwritable.driver
    obtain ⟨p, d', hy⟩ := publish_yields_of_writable hs h.stored.valid h.stored.known h.separate
      hmade h.stored.root hwritable strict
    obtain ⟨-, -, dir', hw⟩ := publish_yields hs hy
    obtain ⟨-, -, hp⟩ := hw.of_directoryAt h.stored.root
    exact ⟨p, d', hy, hp.home, h.stored.unchanged_of_publish hs hy⟩

/-- So another one can follow, and any number of them. -/
theorem Renewable.renews (hs : s.settings.SlashFree) (h : s.Renewable d dir c g)
    (rs : List Renewal) : s.Renews c rs d := by
  induction rs generalizing d with
  | nil => trivial
  | cons r rs ih =>
    obtain ⟨p, d', hy, hsame⟩ := h.renew hs r
    exact ⟨p, d', hy, ih (h.sameTree hs hsame)⟩

/-- A publication changes its own three files and no other. -/
theorem PresetWritten.entry_of_not_mem_files (h : s.PresetWritten d dir c g d') {f : String}
    (hf : f ∉ s.files c.name) : d'.node? (f :: dir) = (s.rooted d).node? (f :: dir) := by
  simp only [files, List.mem_cons, List.not_mem_nil, or_false, not_or] at hf
  obtain ⟨hdriver, hsdf, hdocument⟩ := hf
  refine h.patched.entry_of_not_mem ?_
  rw [lookup_cons_patch, if_neg hdocument, lookup_cons_patch, if_neg hsdf, lookup_cons_patch,
    if_neg hdriver, List.lookup_nil]

/-- **What was published into a directory that was there can be renewed**, since the check for
collisions looks at documents of other names. -/
theorem renewable_of_publish (hs : s.settings.SlashFree) (hd : d.directoryAt s.root = .ok dir)
    {strict : Bool} {p : Published} (hy : (s.publish c strict).Yields d p d') :
    s.Renewable d' dir c p.generated := by
  obtain ⟨-, hg, dir', hw⟩ := publish_yields hs hy
  obtain ⟨rfl, -, -⟩ := hw.of_directoryAt hd
  have hstored := hw.stored hg
  refine ⟨hstored, checkCollision_yields_congr hw.valid (fun m hm hn => ?_) hw.separate⟩
  refine find_join_congr hd hstored.root (isEntryName_documentFile hs hm) ?_
  rw [hw.entry_of_not_mem_files hn.documentFile_not_mem, rooted_of_directoryAt hd]

/-! ## Before a publication -/

/-- The directory of the store is there, and no other preset has a document in it; or it is not
there, and can be made. -/
inductive Awaits (s : Store) (d : Disk) (name : String) : Prop
  | present (dir : Place) (root : d.directoryAt s.root = .ok dir)
      (alone : ∀ m, PresetName.IsValid m → m ≠ name → d.node? (s.documentFile m :: dir) = none)
  | absent (root : s.Absent d) (made : ∃ d', s.ensureRoot.Yields d () d')

/-- A directory stands where a file of the preset should be. -/
def Blocked (s : Store) (d : Disk) (name : String) : Prop :=
  ∃ dir, d.directoryAt s.root = .ok dir ∧
    ∃ f ∈ s.files name, d.node? (f :: dir) = some .directory

/-- Where the directory of the store is not there, no document is, however long its name is. -/
theorem Absent.exists?_documentPath (h : s.Absent d) (hs : s.settings.SlashFree)
    (hmade : s.ensureRoot.Yields d () d') (hv : PresetName.IsValid name)
    (hu : (s.documentPath name).fault? = none) : d.exists? (s.documentPath name) = .ok false :=
  exists?_join_of_missing (h.missing hmade) (isEntryName_documentFile hs hv) hu

/-- What is published was not blocked. -/
theorem PresetWritten.not_blocked (h : s.PresetWritten d dir c g d') : ¬ s.Blocked d c.name := by
  rintro ⟨dir', hd, f, hf, hn⟩
  obtain ⟨rfl, hwritable, -⟩ := h.of_directoryAt hd
  exact (hwritable.of_mem_files hf).not_directory hn

/-- Once the directory of the store is made, it holds no document of another preset. -/
theorem Awaits.alone (h : s.Awaits d name) (hd : (s.rooted d).directoryAt s.root = .ok dir)
    {m : String} (hm : PresetName.IsValid m) (hne : m ≠ name) :
    (s.rooted d).node? (s.documentFile m :: dir) = none := by
  cases h with
  | present dir' hd' halone =>
    rw [rooted_of_directoryAt hd'] at hd ⊢
    obtain rfl := Except.ok.inj (hd'.symm.trans hd)
    exact halone m hm hne
  | absent habsent _ => exact habsent.entry_eq_none hd _

/-- Where nothing is in the way, the directory of the store can be made and the files of the preset
can be written into it. -/
theorem Awaits.writable (h : s.Awaits d name) (hs : s.settings.SlashFree)
    (hv : PresetName.IsValid name) (hfits : ∀ f ∈ s.files name, s.root.entryFault? f = none)
    (hclear : ¬ s.Blocked d name) :
    ∃ dir, s.ensureRoot.Yields d () (s.rooted d) ∧ (s.rooted d).directoryAt s.root = .ok dir ∧
      s.Writable (s.rooted d) dir name := by
  cases h with
  | present dir hd _ =>
    have hr : ∀ f ∈ s.files name, d.Replaceable s.root dir f := fun f hf =>
      ⟨hfits f hf, fun hc => hclear ⟨dir, hd, f, hf, hc⟩⟩
    have hdriver := hr _ (s.driverFile_mem_files name)
    rw [rooted_of_directoryAt hd]
    exact ⟨dir, ensureRoot_of_replaceable hd (isEntryName_driverFile hs hv) hdriver, hd,
      hdriver, hr _ (s.sdfFile_mem_files name), hr _ (s.documentFile_mem_files name)⟩
  | absent habsent hmade =>
    obtain ⟨d', hy⟩ := hmade
    obtain ⟨rfl, dir, hd⟩ := ensureRoot_yields hy
    have hempty := habsent.entry_eq_none hd
    have hr : ∀ f ∈ s.files name, (s.rooted d).Replaceable s.root dir f := fun f hf =>
      ⟨hfits f hf, by rw [hempty f]; simp⟩
    exact ⟨dir, hy, hd, hr _ (s.driverFile_mem_files name), hr _ (s.sdfFile_mem_files name),
      hr _ (s.documentFile_mem_files name)⟩

/-- The check for collisions is passed where the document of the longer neighbour can be looked up,
or where there is no directory to look in. -/
theorem Awaits.checkCollision_yields (h : s.Awaits d name) (hs : s.settings.SlashFree)
    (hv : PresetName.IsValid name) (hfits : s.root.entryFault? (s.documentFile name) = none)
    (hpath : (s.documentPath (Fragment.sdfStem name)).fault? = none)
    (hlook : s.Absent d ∨ s.root.entryFault? (s.documentFile (Fragment.sdfStem name)) = none) :
    (s.checkCollision name).Yields d () d := by
  cases h with
  | present dir hd halone =>
    have hlong := hlook.resolve_left fun hc => hc.root dir hd
    exact checkCollision_yields_of_alone hs hv hd (fun m hm hn => halone m hm hn.ne) hlong
  | absent habsent hmade =>
    obtain ⟨d', hmade⟩ := hmade
    refine (checkCollision_yields_iff_neighbours hv).mpr fun m hm hn => ?_
    refine habsent.exists?_documentPath hs hmade hm ?_
    rcases hn with rfl | rfl
    · have hshort := entryFault?_documentFile_of_sdfStem hs hm hfits
      simp only [Path.entryFault?, Option.orElse_eq_orElse, Option.orElse_eq_or,
        Option.or_eq_none_iff] at hshort
      exact hshort.1
    · exact hpath

/-! ## Once, and again -/

/-- **When a configuration can be published once.** -/
theorem publish_yields_iff_of_awaits (h : s.Awaits d c.name) (hs : s.settings.SlashFree)
    (hv : PresetName.IsValid c.name) (hknown : c.hasUnknown = false)
    (hfits : ∀ f ∈ s.files c.name, s.root.entryFault? f = none)
    (hpath : (s.documentPath (Fragment.sdfStem c.name)).fault? = none) (strict : Bool) :
    (∃ p d', (s.publish c strict).Yields d p d') ↔ ¬ s.Blocked d c.name ∧
      (s.Absent d ∨ s.root.entryFault? (s.documentFile (Fragment.sdfStem c.name)) = none) := by
  constructor
  · rintro ⟨p, d', hy⟩
    obtain ⟨-, -, dir, hw⟩ := publish_yields hs hy
    refine ⟨hw.not_blocked, ?_⟩
    cases h with
    | present dir hd _ => exact .inr (entryFault?_of_checkCollision hs hv hd hw.separate)
    | absent habsent _ => exact .inl habsent
  · rintro ⟨hclear, hlook⟩
    obtain ⟨dir, hmade, hd, hw⟩ := h.writable hs hv hfits hclear
    have hcheck := h.checkCollision_yields hs hv (hfits _ (s.documentFile_mem_files _)) hpath hlook
    exact publish_yields_of_writable hs hv hknown hcheck hmade hd hw strict

/-- What was published can be renewed, where its longer neighbour can be looked up. -/
theorem Awaits.renewable (h : s.Awaits d c.name) (hs : s.settings.SlashFree) {strict : Bool}
    {p : Published} (hy : (s.publish c strict).Yields d p d')
    (hlong : s.root.entryFault? (s.documentFile (Fragment.sdfStem c.name)) = none) :
    ∃ dir g, s.Renewable d' dir c g := by
  obtain ⟨-, hg, dir, hw⟩ := publish_yields hs hy
  have hstored := hw.stored hg
  refine ⟨dir, p.generated, hstored,
    checkCollision_yields_of_alone hs hw.valid hstored.root (fun m hm hn => ?_) hlong⟩
  rw [hw.entry_of_not_mem_files hn.documentFile_not_mem]
  exact h.alone hw.root hm hn.ne

/-- A renewal passes the check for collisions, in the directory that the publication left. -/
theorem entryFault?_of_renew (hs : s.settings.SlashFree) {strict : Bool} {p p' : Published}
    {d'' : Disk} (hy : (s.publish c strict).Yields d p d') {r : Renewal}
    (hr : (s.renew c r).Yields d' p' d'') :
    s.root.entryFault? (s.documentFile (Fragment.sdfStem c.name)) = none := by
  obtain ⟨-, -, dir, hw⟩ := publish_yields hs hy
  have hd' := hw.patched.directoryAt hw.root
  cases r with
  | regenerate strict' =>
    obtain ⟨_, _, -, -, hw'⟩ := regenerate_yields hs hr
    exact entryFault?_of_checkCollision hs hw.valid hd' hw'.separate
  | publish strict' =>
    obtain ⟨-, -, _, hw'⟩ := publish_yields hs hr
    exact entryFault?_of_checkCollision hs hw.valid hd' hw'.separate

/-- **When a published configuration can be renewed.** -/
theorem renew_yields_iff_of_awaits (h : s.Awaits d c.name) (hs : s.settings.SlashFree)
    {strict : Bool} {p : Published} (hy : (s.publish c strict).Yields d p d') (r : Renewal) :
    (∃ p' d'', (s.renew c r).Yields d' p' d'') ↔
      s.root.entryFault? (s.documentFile (Fragment.sdfStem c.name)) = none := by
  constructor
  · rintro ⟨p', d'', hr⟩
    exact entryFault?_of_renew hs hy hr
  · intro hlong
    obtain ⟨dir, g, hrenewable⟩ := h.renewable hs hy hlong
    obtain ⟨p', d'', hr, -⟩ := hrenewable.renew hs r
    exact ⟨p', d'', hr⟩

/-- **When it can be published and then renewed as often as one likes.** -/
theorem staysPublishable_iff_of_awaits (h : s.Awaits d c.name) (hs : s.settings.SlashFree)
    (hv : PresetName.IsValid c.name) (hknown : c.hasUnknown = false)
    (hfits : ∀ f ∈ s.files c.name, s.root.entryFault? f = none)
    (hpath : (s.documentPath (Fragment.sdfStem c.name)).fault? = none) :
    s.StaysPublishable d c ↔ ¬ s.Blocked d c.name ∧
      s.root.entryFault? (s.documentFile (Fragment.sdfStem c.name)) = none := by
  have honce := publish_yields_iff_of_awaits h hs hv hknown hfits hpath
  constructor
  · intro hstays
    obtain ⟨p, d', hy, hrenews⟩ := hstays true
    obtain ⟨p', d'', hr, -⟩ := hrenews [.regenerate true]
    exact ⟨((honce true).mp ⟨p, d', hy⟩).1, entryFault?_of_renew hs hy hr⟩
  · rintro ⟨hclear, hlong⟩ strict
    obtain ⟨p, d', hy⟩ := (honce strict).mpr ⟨hclear, .inr hlong⟩
    obtain ⟨dir, g, hrenewable⟩ := h.renewable hs hy hlong
    exact ⟨p, d', hy, hrenewable.renews hs⟩

/-! ## By the size of the name -/

/-- With the default settings a file of a preset holds no null. -/
theorem null_not_mem_of_mem_files (hs : s.settings = default) (hv : PresetName.IsValid name) :
    ∀ f ∈ s.files name, '\x00' ∉ f.toList := by
  intro f hf
  simp only [files, List.mem_cons, List.not_mem_nil, or_false] at hf
  rcases hf with rfl | rfl | rfl
  · rw [driverFile_of_default hs, String.toList_append, List.mem_append]
    exact not_or.mpr ⟨hv.null_not_mem, by decide⟩
  · rw [sdfFile_eq, driverFile_of_default hs, String.toList_append, List.mem_append]
    exact not_or.mpr ⟨hv.sdfStem.null_not_mem, by decide⟩
  · rw [documentFile_of_default hs, String.toList_append, List.mem_append]
    exact not_or.mpr ⟨hv.null_not_mem, by decide⟩

/-- The document of a name has the longest file name of the three. -/
theorem sizes_le_iff (hs : s.settings = default) : (∀ f ∈ s.files name,
    f.utf8ByteSize ≤ greatestPiece) ↔ name.utf8ByteSize + 10 ≤ greatestPiece := by
  simp only [files, List.forall_mem_cons, List.not_mem_nil, false_imp_iff, implies_true, and_true,
    sdfFile_eq, utf8ByteSize_driverFile hs, utf8ByteSize_documentFile hs,
    Fragment.utf8ByteSize_sdfStem]
  omega

section Size

variable (hs : s.settings = default) (hroot : s.root.Roomy) (hv : PresetName.IsValid name)
  (hfiles : ∀ f ∈ s.files name, f.utf8ByteSize ≤ greatestPiece)
include hs hroot hv hfiles

theorem entryFault?_of_mem_files : ∀ f ∈ s.files name, s.root.entryFault? f = none := by
  intro f hf
  have hroom := hroot.room
  have hpiece := hfiles f hf
  have hentry := isEntryName_of_mem_files (hs ▸ Settings.plain_default.slashFree) hv f hf
  have hnull := null_not_mem_of_mem_files hs hv f hf
  exact (Path.entryFault?_eq_none_iff_of_room hentry hroot.no_null hnull (by omega)).mpr hpiece

/-- The document of the longer neighbour may have too long a name, but its path is not too long. -/
theorem fault?_documentPath_sdfStem :
    (s.documentPath (Fragment.sdfStem name)).fault? = none ∧
      (s.root.entryFault? (s.documentFile (Fragment.sdfStem name)) = none ↔
        name.utf8ByteSize ≤ 242) := by
  have hroom := hroot.room
  have hsize := (sizes_le_iff hs).mp hfiles
  have hstem := Fragment.utf8ByteSize_sdfStem name
  have hlonger := utf8ByteSize_documentFile hs (Fragment.sdfStem name)
  have hentry := isEntryName_documentFile (hs ▸ Settings.plain_default.slashFree) hv.sdfStem
  have hnull := null_not_mem_of_mem_files hs hv.sdfStem _ (s.documentFile_mem_files _)
  refine ⟨Path.fault?_join_of_room hentry hroot.no_null hnull (by omega), ?_⟩
  rw [Path.entryFault?_eq_none_iff_of_room hentry hroot.no_null hnull (by omega), hlonger, hstem,
    greatestPiece]
  omega

end Size

/-- **When a name stays publishable.**  Take a store with the default settings, a configuration
without unknown kinds whose name is valid and whose three file names can be used, and a directory
that is missing, or holds no document of another preset.  With no directory in the place of a file,
the configuration can be published where the directory is missing, and also where it is there if its
name has at most 242 bytes; and with that size, and only then, it can be renewed afterwards, by
regenerating or by publishing, any number of times. -/
theorem staysPublishable_iff (hs : s.settings = default) (hroot : s.root.Roomy)
    (hv : PresetName.IsValid c.name) (hknown : c.hasUnknown = false)
    (hfiles : ∀ f ∈ s.files c.name, f.utf8ByteSize ≤ greatestPiece) (h : s.Awaits d c.name) :
    (∀ strict, (∃ p d', (s.publish c strict).Yields d p d') ↔
      ¬ s.Blocked d c.name ∧ (s.Absent d ∨ c.name.utf8ByteSize ≤ 242)) ∧
    (∀ strict p d', (s.publish c strict).Yields d p d' → ∀ r,
      (∃ p' d'', (s.renew c r).Yields d' p' d'') ↔ c.name.utf8ByteSize ≤ 242) ∧
    (s.StaysPublishable d c ↔ ¬ s.Blocked d c.name ∧ c.name.utf8ByteSize ≤ 242) := by
  have hfree : s.settings.SlashFree := hs ▸ Settings.plain_default.slashFree
  have hfits := entryFault?_of_mem_files hs hroot hv hfiles
  obtain ⟨hpath, hlong⟩ := fault?_documentPath_sdfStem hs hroot hv hfiles
  rw [← hlong]
  exact ⟨publish_yields_iff_of_awaits h hfree hv hknown hfits hpath,
    fun _ _ _ hy r => renew_yields_iff_of_awaits h hfree hy r,
    staysPublishable_iff_of_awaits h hfree hv hknown hfits hpath⟩

/-! ## Two names -/

/-- On a disk that holds its working directory alone, the directory `shaders` is missing. -/
theorem absent_empty : Absent ⟨⟨"shaders"⟩, default⟩ (Disk.empty ["scratch"]) := by
  have hmissing : (Disk.empty ["scratch"]).directoryAt ⟨"shaders"⟩ = .error .notFound := by decide
  refine ⟨fun dir hd => ?_, by decide⟩
  exact absurd (hmissing.symm.trans hd) (by simp)

theorem awaits_empty (name : String) :
    Awaits ⟨⟨"shaders"⟩, default⟩ (Disk.empty ["scratch"]) name :=
  .absent absent_empty ⟨_, rfl, rfl⟩

/-- `Foo` can be published there, and then as often as one likes. -/
theorem staysPublishable_foo :
    StaysPublishable ⟨⟨"shaders"⟩, default⟩ (Disk.empty ["scratch"]) ⟨"Foo", [.boxFold], .box⟩ := by
  refine (staysPublishable_iff rfl ⟨by decide, by decide⟩ (by decide) (by decide) (by decide)
    (awaits_empty _)).2.2.mpr ⟨?_, by decide⟩
  rintro ⟨dir, hd, -⟩
  exact absent_empty.root dir hd

/-- A name of `n` letters. -/
def letters (n : Nat) : String := String.ofList (List.replicate n 'a')

theorem utf8ByteSize_letters (n : Nat) : (letters n).utf8ByteSize = n := by
  have ha : (String.ofList ['a']).utf8ByteSize = 1 := rfl
  induction n with
  | zero => rfl
  | succ n ih =>
    have hcons : letters (n + 1) = String.ofList ['a'] ++ letters n := by
      rw [letters, letters, ← String.ofList_append]
      rfl
    rw [hcons, String.utf8ByteSize_append, ha, ih, Nat.add_comm]

theorem isValid_letters {n : Nat} (hn : n ≠ 0) : PresetName.IsValid (letters n) := by
  have hlist : (letters n).toList = List.replicate n 'a' := String.toList_ofList
  have hmem : 'a' ∈ (letters n).toList := hlist ▸ List.mem_replicate.mpr ⟨hn, rfl⟩
  have hall : ∀ x ∈ (letters n).toList, x = 'a' :=
    fun x hx => List.eq_of_mem_replicate (hlist ▸ hx)
  have hpadded : isPadded (letters n).toList = false := by
    rw [hlist, isPadded, List.head?_replicate, List.getLast?_replicate, if_neg hn]
    decide
  unfold PresetName.IsValid PresetName.fault?
  rw [if_neg, if_neg, if_neg, hpadded]
  · exact if_neg (by simp)
  · rintro (h | h | h) <;> exact absurd (hall _ h) (by decide)
  · rintro (h | h) <;> exact absurd (h ▸ hmem) (by decide)
  · intro h
    exact absurd (h ▸ hmem) (by decide)

/-- **A name that is published once.**  Of its 243 bytes the three file names are short enough, but
that of the document with `SDF` appended is not.  Where the directory of the store is missing the
name is published, and from then on it can be neither regenerated nor published; where the directory
is there it is not published at all. -/
theorem letters_published_once :
    PresetName.IsValid (letters 243) ∧
      (∀ f ∈ files ⟨⟨"shaders"⟩, default⟩ (letters 243), f.utf8ByteSize ≤ 255) ∧
      (∃ p d', (publish ⟨⟨"shaders"⟩, default⟩ ⟨letters 243, [], .box⟩ true).Yields
          (Disk.empty ["scratch"]) p d' ∧
        (∀ p' d'', ¬ (regenerate ⟨⟨"shaders"⟩, default⟩ (letters 243) true).Yields d' p' d'') ∧
        ∀ p' d'', ¬ (publish ⟨⟨"shaders"⟩, default⟩ ⟨letters 243, [], .box⟩ true).Yields
          d' p' d'') ∧
      ∀ p d', ¬ (publish ⟨⟨"shaders"⟩, default⟩ ⟨letters 243, [], .box⟩ true).Yields
        ((Disk.empty ["scratch"]).put "shaders" ["scratch"] .directory) p d' := by
  have hsize := utf8ByteSize_letters 243
  have hv : PresetName.IsValid (letters 243) := isValid_letters (by decide)
  have hfiles : ∀ f ∈ files ⟨⟨"shaders"⟩, default⟩ (letters 243), f.utf8ByteSize ≤ 255 :=
    (sizes_le_iff rfl).mpr (by rw [hsize]; decide)
  have hroot : (⟨"shaders"⟩ : Path).Roomy := ⟨by decide, by decide⟩
  have hfree := Settings.plain_default.slashFree
  have hfits := entryFault?_of_mem_files (s := ⟨⟨"shaders"⟩, default⟩) rfl hroot hv hfiles
  obtain ⟨hpath, hiff⟩ :=
    fault?_documentPath_sdfStem (s := ⟨⟨"shaders"⟩, default⟩) rfl hroot hv hfiles
  have hlong := hiff.not.mpr (by rw [hsize]; decide)
  have hclear : ¬ Blocked ⟨⟨"shaders"⟩, default⟩ (Disk.empty ["scratch"]) (letters 243) :=
    fun ⟨dir, hd, _⟩ => absent_empty.root dir hd
  obtain ⟨p, d', hy⟩ := (publish_yields_iff_of_awaits (c := ⟨letters 243, [], .box⟩)
    (awaits_empty _) hfree hv rfl hfits hpath true).mpr ⟨hclear, .inl absent_empty⟩
  have hnever : ∀ r p' d'',
      ¬ (renew ⟨⟨"shaders"⟩, default⟩ ⟨letters 243, [], .box⟩ r).Yields d' p' d'' := by
    intro r p' d'' hr
    have hlooked := entryFault?_of_renew hfree hy hr
    exact hlong hlooked
  refine ⟨hv, hfiles, ⟨p, d', hy, hnever (.regenerate true), hnever (.publish true)⟩, ?_⟩
  intro p d' hy
  obtain ⟨-, -, dir, hw⟩ := publish_yields hfree hy
  exact hlong (entryFault?_of_checkCollision hfree hv rfl hw.separate)

end Store

end FractalShader
