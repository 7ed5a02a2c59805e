import FractalShader.Proofs.Store.Regeneration
import FractalShader.Proofs.Store.Run
import FractalShader.Proofs.Watch.Place

/-!
# A history of documents

While a store is watched, somebody writes its documents, in any order and with any
content.  A write is *accepted* when its content can be read as a document and no preset
that shares a fragment with this one has a document at that moment.  Documents are never
taken away, so from the first accepted write of one of two such names on, the other is
refused for good, and the fragments go on belonging to the first.

* `Watched` — a directory of files, watched under its absolute path;
* `Accepts` — when a write is accepted; `Watched.step_write` — what becomes of the disk
  when it is, and when it is not;
* `History` — what writes lead to, with a ledger of the documents that were accepted last;
* `Settled` — how the files compare with what was written; every write keeps them so
  (`Settled.accepted`, `Settled.refused`);
* `history_settles` — after every history the fragments are those of the documents that
  were accepted last.
-/

namespace FractalShader

open FractalShader.Action FractalShader.Disk

namespace Watch

variable {s s₀ : Store} {strict : Bool} {d d' d₀ : Disk} {dir : Place} {name n : String}

/-! ## The directory that is watched -/

/-- The store `s` with the default settings is the directory at the place `dir`, taken by its
absolute path, and every entry of that directory is a file. -/
structure Watched (s : Store) (dir : Place) (d : Disk) : Prop where
  settings : s.settings = default
  root : s.root = placePath dir
  names : ∀ name ∈ dir, IsPlainName name
  directory : d.node? dir = some .directory
  files : ∀ f, d.node? (f :: dir) ≠ some .directory

namespace Watched

theorem plain (h : Watched s dir d) : s.settings.Plain := by
  rw [h.settings]
  exact Settings.plain_default

theorem directoryAt (h : Watched s dir d) : d.directoryAt s.root = .ok dir := by
  rw [h.root]
  exact directoryAt_placePath h.names h.directory

theorem replaceable (h : Watched s dir d) {f : String} (hf : IsPlainName f)
    (hroom : RoomFor dir f.utf8ByteSize) : d.Replaceable s.root dir f := by
  refine ⟨?_, h.files f⟩
  rw [h.root]
  exact entryFault?_placePath h.names hf hroom

theorem patched {ps : Patches} (h : Watched s dir d) (hp : d.Patched dir ps d') :
    Watched s dir d' where
  settings := h.settings
  root := h.root
  names := h.names
  directory := hp.keeps.directory dir h.directory
  files f hf := h.files f ((hp.directory_iff (f :: dir)).mp hf)

/-! ## Names of files -/

/-- A name that can be used, with something short appended. -/
theorem plainName_append {suffix : String} (hv : PresetName.IsValid n)
    (hf : IsEntryName (n ++ suffix)) (hnull : '\x00' ∉ suffix.toList)
    (hsize : n.utf8ByteSize + suffix.utf8ByteSize ≤ greatestPiece) : IsPlainName (n ++ suffix) := by
  refine ⟨hf, ?_, ?_⟩
  · rw [String.toList_append, List.mem_append]
    exact not_or.mpr ⟨hv.null_not_mem, hnull⟩
  · rwa [String.utf8ByteSize_append]

theorem plainName_driverFile (h : Watched s dir d) (hv : PresetName.IsValid n)
    (hsize : n.utf8ByteSize + 4 ≤ greatestPiece) : IsPlainName (s.driverFile n) := by
  have hf := Store.isEntryName_driverFile h.plain.slashFree hv
  rw [Store.driverFile_of_default h.settings] at hf ⊢
  exact plainName_append hv hf (by decide) hsize

theorem plainName_documentFile (h : Watched s dir d) (hv : PresetName.IsValid n)
    (hsize : n.utf8ByteSize + 10 ≤ greatestPiece) : IsPlainName (s.documentFile n) := by
  have hf := Store.isEntryName_documentFile h.plain.slashFree hv
  rw [Store.documentFile_of_default h.settings] at hf ⊢
  exact plainName_append hv hf (by decide) hsize

end Watched

/-! ## Writes -/

/-- Somebody writes the document of a preset, under any path. -/
structure Write where
  path : Path
  name : String
  content : ByteArray

/-- The write is to the document of a preset in the directory `dir`, and all files that its
regeneration looks for can be named there.  The longest such name is that of the document that
shares a fragment with this one, which has thirteen bytes more than the preset. -/
structure Write.Fits (s : Store) (dir : Place) (d : Disk) (w : Write) : Prop where
  valid : PresetName.IsValid w.name
  short : w.name.utf8ByteSize ≤ 242
  room : RoomFor dir (w.name.utf8ByteSize + 13)
  leads : d.locate w.path = .ok (.entry dir (s.documentFile w.name) false)

/-- The write is accepted on the disk `d`: it can be read as a document, without unknown kinds
where generation is strict, and no preset that shares a fragment with this one has a document. -/
structure Accepts (s : Store) (strict : Bool) (d : Disk) (dir : Place) (w : Write)
    (document : Document) : Prop where
  decodes : ∃ text, String.fromUTF8? w.content = some text ∧ Document.decode text = .ok document
  known : strict = true → (document.toConfig w.name).hasUnknown = false
  longer : d.node? (s.documentFile (Fragment.sdfStem w.name) :: dir) = none
  shorter : ∀ base, w.name = Fragment.sdfStem base → PresetName.IsValid base →
    d.node? (s.documentFile base :: dir) = none

variable {w : Write} {document : Document} {g : Generated}

theorem Write.Fits.keeps (h : w.Fits s dir d) (hd : d.Keeps d') : w.Fits s dir d' :=
  ⟨h.valid, h.short, h.room, locate_keeps hd h.leads⟩

theorem Write.Fits.short_le (h : w.Fits s dir d) : w.name.utf8ByteSize + 13 ≤ greatestPiece := by
  have hshort := h.short
  unfold greatestPiece
  omega

namespace Watched

/-- What is written is reported, and answered by regenerating that preset. -/
theorem step_eq (h : Watched s dir d) (hw : w.Fits s dir d) (strict : Bool) :
    ∃ d₁, d.Patched dir [(s.documentFile w.name, some w.content)] d₁ ∧
      step s strict d (.write w.path w.content)
        = .ok ((s.regenerate w.name strict).run d₁).disk := by
  have hshort := hw.short_le
  have hplain := h.plainName_documentFile hw.valid (by omega)
  obtain ⟨d₁, hwrite, hp⟩ :=
    writeFileAndParents_of_locate hw.leads hplain.short (h.files _) w.content
  refine ⟨d₁, hp, ?_⟩
  have hnode := hp.entry_of_written (f := s.documentFile w.name) List.lookup_cons_self
  have hfind : d₁.find w.path =
      .ok (s.documentFile w.name :: dir, .file w.content) := by
    rw [find, locate_keeps hp.keeps hw.leads]
    simp only [lookUp_eq_ok_iff.mpr ⟨hplain.short, hnode⟩, Bool.false_eq_true, if_false]
  have hname : s.nameForDocument (placePath (s.documentFile w.name :: dir)) = some w.name := by
    refine (nameForDocument_placePath h.root ?_).mpr ⟨rfl, hw.valid⟩
    intro name hname
    rcases List.mem_cons.mp hname with rfl | hname
    · exact hplain.toIsEntryName
    · exact (h.names name hname).toIsEntryName
  rw [step, Deed.apply, hwrite]
  simp only [Except.map, changeAt, hfind, List.foldl_cons, List.foldl_nil]
  rw [respond, affected_of_document (.inr rfl) hname, (run_regenerateAll s strict _ d₁).2]
  rfl

theorem replaceable_driverFile (h : Watched s dir d) (hv : PresetName.IsValid n)
    (hsize : n.utf8ByteSize + 4 ≤ greatestPiece) (hroom : RoomFor dir (n.utf8ByteSize + 4)) :
    d.Replaceable s.root dir (s.driverFile n) := by
  apply h.replaceable (h.plainName_driverFile hv hsize)
  rwa [Store.utf8ByteSize_driverFile h.settings]

theorem replaceable_documentFile (h : Watched s dir d) (hv : PresetName.IsValid n)
    (hsize : n.utf8ByteSize + 10 ≤ greatestPiece) (hroom : RoomFor dir (n.utf8ByteSize + 10)) :
    d.Replaceable s.root dir (s.documentFile n) := by
  apply h.replaceable (h.plainName_documentFile hv hsize)
  rwa [Store.utf8ByteSize_documentFile h.settings]

theorem writable (h : Watched s dir d) (hw : w.Fits s dir d₀) : s.Writable d dir w.name := by
  have hsize := hw.short_le
  refine ⟨?_, ?_, ?_⟩
  · exact h.replaceable_driverFile hw.valid (by omega) (hw.room.mono (by omega))
  · have hstem := Fragment.utf8ByteSize_sdfStem w.name
    rw [Store.sdfFile_eq]
    exact h.replaceable_driverFile hw.valid.sdfStem (by omega) (hw.room.mono (by omega))
  · exact h.replaceable_documentFile hw.valid (by omega) (hw.room.mono (by omega))

/-- The document of a name that is short enough is found exactly where there is one. -/
theorem exists?_document (h : Watched s dir d) (hv : PresetName.IsValid n)
    (hsize : n.utf8ByteSize + 10 ≤ greatestPiece) (hroom : RoomFor dir (n.utf8ByteSize + 10)) :
    d.exists? (s.documentPath n) = .ok false ↔ d.node? (s.documentFile n :: dir) = none := by
  have hentry := Store.isEntryName_documentFile h.plain.slashFree hv
  have hexists := exists?_join_eq_ok_iff (b := false) h.directoryAt hentry
  rw [Store.documentPath, hexists,
    and_iff_right (h.replaceable_documentFile hv hsize hroom).fits]
  cases d.node? (s.documentFile n :: dir) <;> simp

/-- After a document was written, its preset can be regenerated exactly if the write is accepted. -/
theorem regenerable_iff (h : Watched s dir d) (hw : w.Fits s dir d)
    (hp : d.Patched dir [(s.documentFile w.name, some w.content)] d') :
    s.Regenerable strict d' dir w.name g ↔ ∃ document, Accepts s strict d dir w document ∧
      Fragment.generate (document.toConfig w.name) s.settings strict = .ok g := by
  have h' := h.patched hp
  have hshort := hw.short_le
  have hwritable := h'.writable hw
  have hslash := h.plain.slashFree
  have hentry := Store.isEntryName_documentFile hslash hw.valid
  have hnode := hp.entry_of_written (f := s.documentFile w.name) List.lookup_cons_self
  have hother : ∀ m, m ≠ w.name →
      d'.node? (s.documentFile m :: dir) = d.node? (s.documentFile m :: dir) := by
    intro m hm
    apply hp.entry_of_not_mem
    rw [lookup_singleton_patch, if_neg fun hc => hm (Store.documentFile_inj.mp hc)]
  have hcontent : ∀ text, d'.readText (s.documentPath w.name) = .ok text ↔
      String.fromUTF8? w.content = some text := by
    intro text
    have hfile : ∀ content, d'.readFile (s.documentPath w.name) = .ok content ↔
        content = w.content := by
      intro content
      rw [Store.documentPath, readFile_join_eq_ok_iff h'.directoryAt hentry, hnode,
        and_iff_right hwritable.document.fits, Option.some_inj, Node.file.injEq]
      exact eq_comm
    rw [readText_eq_ok_iff]
    simp only [hfile, exists_eq_left]
  have hlonger : d'.exists? (s.documentPath (Fragment.sdfStem w.name)) = .ok false ↔
      d.node? (s.documentFile (Fragment.sdfStem w.name) :: dir) = none := by
    have hsize := Fragment.utf8ByteSize_sdfStem w.name
    rw [h'.exists?_document hw.valid.sdfStem (by omega) (hw.room.mono (by omega)),
      hother _ (Store.sdfStem_ne w.name)]
  have hshorter : ∀ base, w.name = Fragment.sdfStem base → PresetName.IsValid base →
      (d'.exists? (s.documentPath base) = .ok false ↔
        d.node? (s.documentFile base :: dir) = none) := by
    intro base hname hb
    have hsize := Fragment.utf8ByteSize_sdfStem base
    rw [← hname] at hsize
    rw [h'.exists?_document hb (by omega) (hw.room.mono (by omega)), hother base]
    intro hc
    exact Store.sdfStem_ne base (hname.symm.trans hc.symm)
  constructor
  · intro hr
    obtain ⟨c, hread, hg⟩ := hr.generated
    obtain ⟨-, ⟨text, document, htext, hdecode, rfl⟩, -⟩ := Store.readDocument_yields_iff.mp hread
    obtain ⟨hbase, hstem⟩ := (Store.checkCollision_yields_iff hw.valid).mp hr.separate
    refine ⟨document, ⟨⟨text, (hcontent text).mp htext, hdecode⟩, ?_, hlonger.mp hstem, ?_⟩, hg⟩
    · exact Fragment.generate_ok_iff.mp ⟨g, hg⟩
    · intro base hname hb
      exact (hshorter base hname hb).mp (hbase base hname hb)
  · rintro ⟨document, ha, hg⟩
    obtain ⟨text, htext, hdecode⟩ := ha.decodes
    refine ⟨h'.directoryAt, ⟨document.toConfig w.name, ?_, hg⟩, ?_, hwritable.driver,
      hwritable.sdf⟩
    · exact Store.readDocument_yields_iff.mpr
        ⟨hw.valid, ⟨text, document, (hcontent text).mpr htext, hdecode, rfl⟩, rfl⟩
    · refine (Store.checkCollision_yields_iff hw.valid).mpr ⟨?_, hlonger.mpr ha.longer⟩
      intro base hname hb
      exact (hshorter base hname hb).mpr (ha.shorter base hname hb)

/-- **What a write leads to.**  Its content is in the document, and when it is accepted both
fragments are those of that document; nothing else changes. -/
theorem step_write (h : Watched s dir d) (hw : w.Fits s dir d) (strict : Bool) :
    ∃ d', step s strict d (.write w.path w.content) = .ok d' ∧
      (∀ document, Accepts s strict d dir w document → ∃ g,
        Fragment.generate (document.toConfig w.name) s.settings strict = .ok g ∧
        d.Patched dir [(s.sdfFile w.name, some g.sdf.toUTF8),
          (s.driverFile w.name, some g.driver.toUTF8),
          (s.documentFile w.name, some w.content)] d') ∧
      ((∀ document, ¬ Accepts s strict d dir w document) →
        d.Patched dir [(s.documentFile w.name, some w.content)] d') := by
  obtain ⟨d₁, hp, hstep⟩ := h.step_eq hw strict
  refine ⟨_, hstep, ?_, ?_⟩
  · intro document ha
    obtain ⟨g, hg⟩ : ∃ g, Fragment.generate (document.toConfig w.name) s.settings strict = .ok g :=
      Fragment.generate_ok_iff.mpr ha.known
    have hr := (h.regenerable_iff hw hp).mpr ⟨document, ha, hg⟩
    obtain ⟨d', hy, hp'⟩ := hr.yields h.plain.slashFree
    rw [hy.2]
    exact ⟨g, hg, hp.trans hp'⟩
  · intro hnone
    have h₁ := h.patched hp
    rcases (s.regenerate w.name strict).yields_or_fails d₁ with ⟨p, hy⟩ | ⟨e, hfail⟩
    · have hr := (Store.regenerate_yields_iff h.plain.slashFree h₁.directoryAt).mp ⟨p, _, hy, rfl⟩
      obtain ⟨document, ha, -⟩ := (h.regenerable_iff hw hp).mp hr
      exact absurd ha (hnone document)
    · rw [Store.regenerate_fails_of_writable h.plain.slashFree h₁.directoryAt
        (h₁.writable hw) hfail]
      exact hp

end Watched

/-! ## Histories -/

/-- What a history of writes leads to, from the disk `d₀`: the ledger of what was accepted last
under each name, and the disk.  The writes are listed with the last one first, and each is answered
before the next. -/
inductive History (s : Store) (strict : Bool) (dir : Place) (d₀ : Disk) :
    List Write → Ledger → Disk → Prop where
  | start : History s strict dir d₀ [] Ledger.blank d₀
  | accepted {w : Write} {earlier : List Write} {ledger : Ledger} {d d' : Disk}
      {document : Document} : History s strict dir d₀ earlier ledger d →
      Accepts s strict d dir w document → step s strict d (.write w.path w.content) = .ok d' →
      History s strict dir d₀ (w :: earlier)
        (ledger.set w.name (some (document.toConfig w.name))) d'
  | refused {w : Write} {earlier : List Write} {ledger : Ledger} {d d' : Disk} :
      History s strict dir d₀ earlier ledger d →
      (∀ document, ¬ Accepts s strict d dir w document) →
      step s strict d (.write w.path w.content) = .ok d' →
      History s strict dir d₀ (w :: earlier) ledger d'

/-- How the files of the directory compare with the writes, the last one first: the fragments of
each preset with an accepted write are generated from the last such, each document that was written
has its last content, and nothing else is changed. -/
structure Settled (s : Store) (strict : Bool) (dir : Place) (d₀ : Disk) (writes : List Write)
    (ledger : Ledger) (d : Disk) : Prop where
  fragments : ∀ n c, ledger n = some c → ∃ g, Fragment.generate c s.settings strict = .ok g ∧
    s.HoldsFragments d dir n g
  documents : ∀ n w, writes.find? (·.name = n) = some w →
    d.node? (s.documentFile n :: dir) = some (.file w.content)
  others : ∀ q, (∀ w ∈ writes, q ≠ s.documentFile w.name :: dir) →
    (∀ n, ledger n ≠ none → ∀ f ∈ s.fragments n, q ≠ f :: dir) → d.node? q = d₀.node? q

variable {writes : List Write} {ledger ledger' : Ledger}

theorem settled_start : Settled s strict dir d₀ [] Ledger.blank d₀ where
  fragments _ _ hn := absurd hn (by simp [Ledger.blank])
  documents _ _ hw := absurd hw (by simp)
  others _ _ _ := rfl

/-- One more write keeps the files so when it changes nothing but its own document and, if it is in
the ledger, its own fragments. -/
theorem Settled.write {ps : Patches} (h : Settled s strict dir d₀ writes ledger d)
    (hs : s.settings.Plain) (hp : d.Patched dir ps d')
    (hdocument : ps.lookup (s.documentFile w.name) = some (some w.content))
    (hkeys : ∀ f c, ps.lookup f = some c → f = s.documentFile w.name ∨
      ledger' w.name ≠ none ∧ f ∈ s.fragments w.name)
    (hledger : ∀ n, ledger n ≠ none → ledger' n ≠ none)
    (hfragments : ∀ n c, ledger' n = some c → (∃ g,
        Fragment.generate c s.settings strict = .ok g ∧ s.HoldsFragments d' dir n g) ∨
      ledger n = some c ∧ ∀ f ∈ s.fragments n, ps.lookup f = none) :
    Settled s strict dir d₀ (w :: writes) ledger' d' where
  fragments n c hn := by
    rcases hfragments n c hn with hnew | ⟨hold, hkept⟩
    · exact hnew
    · obtain ⟨g, hg, hholds⟩ := h.fragments n c hold
      exact ⟨g, hg, hholds.patched hp hkept⟩
  documents n w' hw' := by
    by_cases hn : w.name = n
    · subst hn
      rw [List.find?_cons_of_pos (by simp)] at hw'
      cases hw'
      exact hp.entry_of_written hdocument
    · rw [List.find?_cons_of_neg (by simpa using hn)] at hw'
      rw [hp.entry_of_not_mem]
      · exact h.documents n w' hw'
      · cases hl : ps.lookup (s.documentFile n) with
        | none => rfl
        | some c =>
          rcases hkeys _ c hl with hc | ⟨-, hc⟩
          · exact absurd (Store.documentFile_inj.mp hc) (Ne.symm hn)
          · exact absurd hc (Store.documentFile_not_mem_fragments_of_plain hs n w.name)
  others q hdocuments hfragments' := by
    rcases hp.node?_eq_or q with heq | ⟨f, c, rfl, hl⟩
    · rw [heq]
      apply h.others q
      · intro w' hw'
        exact hdocuments w' (List.mem_cons_of_mem w hw')
      · intro n hn
        exact hfragments' n (hledger n hn)
    · rcases hkeys f c hl with rfl | ⟨hn, hf⟩
      · exact absurd rfl (hdocuments w List.mem_cons_self)
      · exact absurd rfl (hfragments' w.name hn f hf)

/-- A write that is not accepted changes its document only. -/
theorem Settled.refused (h : Settled s strict dir d₀ writes ledger d) (hs : s.settings.Plain)
    (hp : d.Patched dir [(s.documentFile w.name, some w.content)] d') :
    Settled s strict dir d₀ (w :: writes) ledger d' := by
  apply h.write hs hp List.lookup_cons_self
  · intro f c hl
    exact .inl (eq_of_lookup_singleton hl).1
  · exact fun _ hn => hn
  · intro n c hn
    refine .inr ⟨hn, ?_⟩
    intro f hf
    rw [lookup_singleton_patch, if_neg]
    rintro rfl
    exact Store.documentFile_not_mem_fragments_of_plain hs w.name n hf

/-- A write that is accepted changes no fragments of other presets in the ledger, since these have
documents. -/
theorem Settled.accepted (h : Settled s strict dir d₀ writes ledger d) (hs : s.settings.Plain)
    (hdocumented : ∀ n, ledger n ≠ none → PresetName.IsValid n ∧
      d.node? (s.documentFile n :: dir) ≠ none)
    (ha : Accepts s strict d dir w document)
    (hg : Fragment.generate (document.toConfig w.name) s.settings strict = .ok g)
    (hp : d.Patched dir [(s.sdfFile w.name, some g.sdf.toUTF8),
      (s.driverFile w.name, some g.driver.toUTF8), (s.documentFile w.name, some w.content)] d') :
    Settled s strict dir d₀ (w :: writes) (ledger.set w.name (some (document.toConfig w.name)))
      d' := by
  have hset : ledger.set w.name (some (document.toConfig w.name)) w.name ≠ none := by
    rw [Ledger.set_self]
    exact Option.some_ne_none _
  have hmem : ∀ f c, List.lookup f [(s.sdfFile w.name, some g.sdf.toUTF8),
      (s.driverFile w.name, some g.driver.toUTF8), (s.documentFile w.name, some w.content)]
        = some c → f = s.documentFile w.name ∨ f ∈ s.fragments w.name := by
    intro f c hl
    have hpatch := mem_of_lookup hl
    simp only [List.mem_cons, Prod.mk.injEq, List.not_mem_nil, or_false] at hpatch
    rcases hpatch with ⟨rfl, -⟩ | ⟨rfl, -⟩ | ⟨rfl, -⟩
    · exact .inr (by simp [Store.fragments])
    · exact .inr (by simp [Store.fragments])
    · exact .inl rfl
  apply h.write hs hp
  · rw [lookup_cons_patch, if_neg (s.sdfFile_ne_documentFile w.name).symm, lookup_cons_patch,
      if_neg (s.driverFile_ne_documentFile w.name).symm, lookup_cons_patch, if_pos rfl]
  · intro f c hl
    exact (hmem f c hl).imp_right fun hf => ⟨hset, hf⟩
  · intro n hn
    by_cases hname : n = w.name
    · rw [hname]
      exact hset
    · rwa [Ledger.set_other hname]
  · intro n c hn
    by_cases hname : n = w.name
    · subst hname
      rw [Ledger.set_self] at hn
      obtain rfl := Option.some.inj hn
      exact .inl ⟨g, hg, Store.holdsFragments_of_patched hp⟩
    · rw [Ledger.set_other hname] at hn
      obtain ⟨hv, hdocument⟩ := hdocumented n (by rw [hn]; simp)
      refine .inr ⟨hn, ?_⟩
      intro f hf
      cases hl : List.lookup f [(s.sdfFile w.name, some g.sdf.toUTF8),
          (s.driverFile w.name, some g.driver.toUTF8), (s.documentFile w.name, some w.content)] with
      | none => rfl
      | some k =>
        -- the two would share a fragment, and then the write was not accepted
        exfalso
        have hfile : f ∈ s.files w.name := by
          rcases hmem f k hl with rfl | hfragment
          · simp [Store.files]
          · exact Store.mem_files_of_mem_fragments hfragment
        rcases Store.shared_file hs (Ne.symm hname) hfile (Store.mem_files_of_mem_fragments hf) with
          ⟨rfl, -⟩ | ⟨hbase, -⟩
        · exact hdocument ha.longer
        · exact hdocument (ha.shorter n hbase hv)

/-! ## Every history -/

/-- What is in the ledger was written. -/
theorem History.written (h : History s strict dir d₀ writes ledger d) (hn : ledger n ≠ none) :
    ∃ w ∈ writes, w.name = n := by
  induction h with
  | start => exact absurd rfl hn
  | @accepted w earlier ledger d d' document hrun ha hstep ih =>
    by_cases hname : n = w.name
    · exact ⟨w, List.mem_cons_self, hname.symm⟩
    · rw [Ledger.set_other hname] at hn
      obtain ⟨w', hw', heq⟩ := ih hn
      exact ⟨w', List.mem_cons_of_mem w hw', heq⟩
  | @refused w earlier ledger d d' hrun hnone hstep ih =>
    obtain ⟨w', hw', heq⟩ := ih hn
    exact ⟨w', List.mem_cons_of_mem w hw', heq⟩

/-- Where the files are settled, every preset in the ledger has a document. -/
theorem Settled.documented (h : Settled s strict dir d₀ writes ledger d)
    (hfits : ∀ w ∈ writes, PresetName.IsValid w.name)
    (hwritten : ∃ w ∈ writes, w.name = n) :
    PresetName.IsValid n ∧ d.node? (s.documentFile n :: dir) ≠ none := by
  obtain ⟨w, hw, rfl⟩ := hwritten
  refine ⟨hfits w hw, ?_⟩
  obtain ⟨last, hlast⟩ := Option.isSome_iff_exists.mp
    (List.find?_isSome.mpr ⟨w, hw, decide_eq_true rfl⟩ :
      (writes.find? (·.name = w.name)).isSome)
  rw [h.documents w.name last hlast]
  exact Option.some_ne_none _

/-- After every history the directory is still watched, and the files are settled. -/
theorem History.settled (h : History s strict dir d₀ writes ledger d) (h₀ : Watched s dir d₀)
    (hfits : ∀ w ∈ writes, w.Fits s dir d₀) :
    Watched s dir d ∧ d₀.Keeps d ∧ Settled s strict dir d₀ writes ledger d := by
  induction h with
  | start => exact ⟨h₀, Keeps.refl d₀, settled_start⟩
  | @accepted w earlier ledger d d' document hrun ha hstep ih =>
    obtain ⟨hw, hearlier⟩ := List.forall_mem_cons.mp hfits
    obtain ⟨hwatched, hkeeps, hsettled⟩ := ih hearlier
    obtain ⟨d'', hstep', haccepted, -⟩ := hwatched.step_write (hw.keeps hkeeps) strict
    obtain rfl := Except.ok.inj (hstep.symm.trans hstep')
    obtain ⟨g, hg, hp⟩ := haccepted document ha
    refine ⟨hwatched.patched hp, hkeeps.trans hp.keeps,
      hsettled.accepted hwatched.plain ?_ ha hg hp⟩
    intro n hn
    exact hsettled.documented (fun w' hw' => (hearlier w' hw').valid) (hrun.written hn)
  | @refused w earlier ledger d d' hrun hnone hstep ih =>
    obtain ⟨hw, hearlier⟩ := List.forall_mem_cons.mp hfits
    obtain ⟨hwatched, hkeeps, hsettled⟩ := ih hearlier
    obtain ⟨d'', hstep', -, hrefused⟩ := hwatched.step_write (hw.keeps hkeeps) strict
    obtain rfl := Except.ok.inj (hstep.symm.trans hstep')
    have hp := hrefused hnone
    exact ⟨hwatched.patched hp, hkeeps.trans hp.keeps, hsettled.refused hwatched.plain hp⟩

/-- Whatever is written, every write is answered. -/
theorem Watched.exists_history (h₀ : Watched s dir d₀) (strict : Bool)
    (hfits : ∀ w ∈ writes, w.Fits s dir d₀) :
    ∃ ledger d, History s strict dir d₀ writes ledger d := by
  induction writes with
  | nil => exact ⟨_, _, .start⟩
  | cons w earlier ih =>
    obtain ⟨hw, hearlier⟩ := List.forall_mem_cons.mp hfits
    obtain ⟨ledger, d, hrun⟩ := ih hearlier
    obtain ⟨hwatched, hkeeps, -⟩ := hrun.settled h₀ hearlier
    obtain ⟨d', hstep, -⟩ := hwatched.step_write (hw.keeps hkeeps) strict
    by_cases haccepted : ∃ document, Accepts s strict d dir w document
    · obtain ⟨document, ha⟩ := haccepted
      exact ⟨_, d', hrun.accepted ha hstep⟩
    · exact ⟨ledger, d', hrun.refused (not_exists.mp haccepted) hstep⟩

/-- It makes no difference whether a file is reported as created or as modified. -/
theorem respond_create (s : Store) (strict : Bool) (paths : List Path) :
    respond s strict ⟨.create, paths⟩ = respond s strict ⟨.modify, paths⟩ := by
  rw [respond, respond, affected, affected, if_pos (.inl rfl), if_pos (.inr rfl)]

/-- Whatever a report is about, the response ends well, and it reaches every preset that can be
regenerated by itself, however the regenerations of the others end. -/
theorem respond_reaches (hs : s.settings.Plain) (c : Change) (d : Disk) :
    ((respond s strict c).run d).result = .ok () ∧
      ∀ name p d', d.directoryAt s.root = .ok dir → name ∈ affected s c →
        (s.regenerate name strict).Yields d p d' →
        s.HoldsFragments ((respond s strict c).run d).disk dir name p.generated := by
  obtain ⟨hresult, hdisk⟩ := run_regenerateAll s strict (affected s c) d
  refine ⟨hresult, ?_⟩
  intro name p d' hd hname hy
  have hr := (Store.regenerate_yields_iff hs.slashFree hd).mp ⟨p, d', hy, rfl⟩
  rw [respond, hdisk]
  exact Store.holdsFragments_of_regenerations hs hr (.inl hname)

/-- **What writes lead to while a store is watched.**  A watcher is started on a directory of files
with the default settings, and the documents of presets are written into it, in any order and with
any content.  Every write is answered.  After any history, each preset with an accepted write has
the fragments that are generated from the last such, every document that was written holds what was
written last, and everything else is as it was when the watcher started.  And whatever a report is
about, a preset that can be regenerated is, whatever becomes of the others. -/
theorem history_settles {s' : Store} {d : Disk} (hsettings : s'.settings = default)
    (hstart : (start s').Yields d s d₀) (hdir : d₀.directoryAt s'.root = .ok dir)
    (hnames : ∀ name ∈ dir, IsPlainName name)
    (hfiles : ∀ f, d₀.node? (f :: dir) ≠ some .directory) (strict : Bool)
    (hfits : ∀ w ∈ writes, w.Fits s dir d₀) :
    (∃ ledger d, History s strict dir d₀ writes ledger d) ∧
      (∀ ledger d, History s strict dir d₀ writes ledger d →
        Settled s strict dir d₀ writes ledger d) ∧
      (∀ paths, respond s strict ⟨.create, paths⟩ = respond s strict ⟨.modify, paths⟩) ∧
      ∀ c d, ((respond s strict c).run d).result = .ok () ∧
        ∀ name p d', d.directoryAt s.root = .ok dir → name ∈ affected s c →
          (s.regenerate name strict).Yields d p d' →
          s.HoldsFragments ((respond s strict c).run d).disk dir name p.generated := by
  obtain ⟨q, hq, rfl⟩ := start_yields hstart
  obtain rfl := Except.ok.inj (hdir.symm.trans hq)
  have h₀ : Watched { s' with root := placePath dir } dir d₀ :=
    ⟨hsettings, rfl, hnames, node?_directoryAt hdir, hfiles⟩
  refine ⟨h₀.exists_history strict hfits, ?_, respond_create _ strict, respond_reaches h₀.plain⟩
  intro ledger d hrun
  exact (hrun.settled h₀ hfits).2.2

/-! ## A name that is taken -/

/-- A disk with a store that holds nothing. -/
def freshShaders : Disk := (Disk.empty ["scratch"]).put "shaders" ["scratch"] .directory

/-- The store of a watcher that was started there. -/
def freshStore : Store := ⟨⟨"/scratch/shaders"⟩, default⟩

/-- The document of `Foo` is written. -/
def fooWrite : Write :=
  ⟨⟨"shaders/Foo_Conf.json"⟩, "Foo", (Document.encode ⟨[.boxFold], .box⟩).toUTF8⟩

/-- The document of `FooSDF` is written. -/
def fooSdfWrite : Write :=
  ⟨⟨"./shaders/FooSDF_Conf.json"⟩, "FooSDF", (Document.encode ⟨[], .sphere⟩).toUTF8⟩

theorem accepts_fooWrite :
    Accepts freshStore true freshShaders ["shaders", "scratch"] fooWrite ⟨[.boxFold], .box⟩ where
  decodes := ⟨_, fromUTF8?_toUTF8 _, Document.decode_encode _⟩
  known _ := by decide
  longer := by decide
  shorter base hname _ := by
    have hnone : dropSuffix? fooWrite.name "SDF" = none := by decide
    rw [dropSuffix?_eq_some_iff.mpr hname] at hnone
    exact absurd hnone (by simp)

/-- First the document of `Foo` is written, and then that of `FooSDF`, whose driver would be the
distance fragment of `Foo`: the first is accepted, the second is not, and the fragments are those of
`Foo`. -/
theorem history_settles_foo : ∃ ledger d,
    History freshStore true ["shaders", "scratch"] freshShaders [fooSdfWrite, fooWrite] ledger d ∧
      ledger "Foo" = some ⟨"Foo", [.boxFold], .box⟩ ∧ ledger "FooSDF" = none ∧
      Settled freshStore true ["shaders", "scratch"] freshShaders [fooSdfWrite, fooWrite] ledger
        d := by
  have hstart : (start ⟨⟨"shaders"⟩, default⟩).Yields freshShaders freshStore freshShaders :=
    ⟨rfl, rfl⟩
  have hnames : ∀ name ∈ ["shaders", "scratch"], IsPlainName name := by
    intro name hname
    simp only [List.mem_cons, List.not_mem_nil, or_false] at hname
    rcases hname with rfl | rfl
    · exact ⟨⟨by decide, by decide, by decide, by decide⟩, by decide, by decide⟩
    · exact ⟨⟨by decide, by decide, by decide, by decide⟩, by decide, by decide⟩
  have hfiles : ∀ f, freshShaders.node? (f :: ["shaders", "scratch"]) ≠ some .directory := by
    intro f
    have hlow : ¬ f :: ["shaders", "scratch"] <:+ ["scratch"] := by
      intro hc
      have hlen := hc.length_le
      simp at hlen
    rw [freshShaders, node?_put (by decide), if_neg (by simp), node?_empty, if_neg hlow]
    simp
  have hfits : ∀ w ∈ [fooSdfWrite, fooWrite],
      w.Fits freshStore ["shaders", "scratch"] freshShaders := by
    intro w hw
    simp only [List.mem_cons, List.not_mem_nil, or_false] at hw
    rcases hw with rfl | rfl
    · exact ⟨by decide, by decide, by unfold RoomFor; decide, by decide⟩
    · exact ⟨by decide, by decide, by unfold RoomFor; decide, by decide⟩
  have hsettles := fun writes (h : ∀ w ∈ writes, w ∈ [fooSdfWrite, fooWrite]) =>
    history_settles rfl hstart rfl hnames hfiles true
      fun w hw => hfits w (h w hw)
  obtain ⟨⟨ledger, d, hrun⟩, hsettled, -⟩ := hsettles [fooSdfWrite, fooWrite] (by simp)
  have hledger : ledger = Ledger.blank.set "Foo" (some ⟨"Foo", [.boxFold], .box⟩) := by
    obtain ⟨-, hsettledFoo, -⟩ := hsettles [fooWrite] (by simp)
    cases hrun with
    | accepted hfoo ha hstep =>
      have hdocument := (hsettledFoo _ _ hfoo).documents "Foo" fooWrite rfl
      have hnone := ha.shorter "Foo" rfl (by decide)
      exact absurd (hdocument.symm.trans hnone) (by simp)
    | refused hfoo hnone hstep =>
      cases hfoo with
      | accepted hblank ha hstep' =>
        cases hblank
        obtain ⟨text, htext, hdecode⟩ := ha.decodes
        obtain rfl := Option.some.inj ((fromUTF8?_toUTF8 _).symm.trans htext)
        obtain rfl := Except.ok.inj ((Document.decode_encode _).symm.trans hdecode)
        rfl
      | refused hblank hnone' hstep' =>
        cases hblank
        exact absurd accepts_fooWrite (hnone' _)
  subst hledger
  exact ⟨_, d, hrun, rfl, rfl, hsettled _ d hrun⟩

end Watch

end FractalShader
