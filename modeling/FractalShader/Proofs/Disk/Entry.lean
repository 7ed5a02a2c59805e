import FractalShader.Proofs.Disk.Directory
import FractalShader.Proofs.Path.Join

/-!
# The entries of a directory

A path that names an entry of a directory leads to that entry, or is refused for
its spelling alone.  What can be looked up, written and removed under it then
depends on one place of the disk, and a change is felt at that place only.

* `Path.entryFault?_eq_none_iff_of_room` — which entries can be named;
* `find_join`, `exists?_join_eq_ok_iff`, `readFile_join_eq_ok_iff` — what is seen
  under an entry's path is what stands at its place;
* `writeFile_join`, `removeFile_join` — when an entry can be changed, and how.
-/

namespace FractalShader

namespace Path

/-- Why the path of the entry `file` of the directory `p` is refused, whatever the disk holds. -/
def entryFault? (p : Path) (file : String) : Option OsError :=
  (p.join file).fault? <|>
    if Disk.greatestPiece < file.utf8ByteSize then some .nameTooLong else none

theorem text_join_ne_empty {p : Path} {file : String} (h : IsEntryName file) :
    (p.join file).text ≠ "" := by
  intro hc
  have := pieces_join (p := p) h
  rw [hc] at this
  simp [pieces, fields] at this

/-- An entry can be named when its path may be spelled so and its name is not too long. -/
theorem entryFault?_eq_none_iff_fault? {p : Path} {file : String} : p.entryFault? file = none ↔
    (p.join file).fault? = none ∧ file.utf8ByteSize ≤ Disk.greatestPiece := by
  unfold entryFault?
  rw [← Nat.not_lt]
  cases (p.join file).fault? with
  | some e => simp
  | none => by_cases hpiece : Disk.greatestPiece < file.utf8ByteSize <;> simp [hpiece]

/-- An entry can be named when its path is not too long, nor its name, and holds no null. -/
theorem entryFault?_eq_none_iff {p : Path} {file : String} (h : IsEntryName file) :
    p.entryFault? file = none ↔ '\x00' ∉ (p.join file).text.toList ∧
      (p.join file).text.utf8ByteSize ≤ Disk.greatestPath ∧
      file.utf8ByteSize ≤ Disk.greatestPiece := by
  rw [entryFault?_eq_none_iff_fault?, fault?_eq_none_iff (text_join_ne_empty h), and_assoc]

theorem entryFault?_ne_notFound {p : Path} {file : String} (h : IsEntryName file) :
    p.entryFault? file ≠ some .notFound := by
  unfold entryFault? fault?
  rw [if_neg (text_join_ne_empty h)]
  split
  · simp
  · split
    · simp
    · split <;> simp

/-- Where a path may be spelled with an entry behind it, it may be spelled so itself. -/
theorem fault?_of_fault?_join {p : Path} {file : String} (h : IsEntryName file)
    (hne : p.text ≠ "") (hf : (p.join file).fault? = none) : p.fault? = none := by
  obtain ⟨hnull, hlong⟩ := (fault?_eq_none_iff (text_join_ne_empty h)).mp hf
  have hsub : ∃ rest, (p.join file).text = p.text ++ rest := by
    rw [text_join h, if_neg hne]
    split
    · exact ⟨file, rfl⟩
    · exact ⟨"/" ++ file, String.append_assoc ..⟩
  obtain ⟨rest, hrest⟩ := hsub
  rw [hrest, String.toList_append, List.mem_append, not_or] at hnull
  rw [hrest, String.utf8ByteSize_append] at hlong
  exact (fault?_eq_none_iff hne).mpr ⟨hnull.1, by omega⟩

/-- Where an entry can be named, so can its directory. -/
theorem fault?_of_entryFault? {p : Path} {file : String} (h : IsEntryName file)
    (hne : p.text ≠ "") (hf : p.entryFault? file = none) : p.fault? = none :=
  fault?_of_fault?_join h hne (entryFault?_eq_none_iff_fault?.mp hf).1

/-- Before the name of every entry stands the path of the directory, up to a slash. -/
theorem text_join_eq_append (p : Path) : ∃ start, start ∈ ["", p.text, p.text ++ "/"] ∧
    ∀ file, IsEntryName file → (p.join file).text = start ++ file := by
  by_cases hp : p.text = ""
  · refine ⟨"", by simp, ?_⟩
    intro file hfile
    rw [text_join hfile, if_pos hp, String.empty_append]
  · by_cases hlast : p.text.toList.getLast? = some '/'
    · refine ⟨p.text, by simp, ?_⟩
      intro file hfile
      rw [text_join hfile, if_neg hp, if_pos hlast]
    · refine ⟨p.text ++ "/", by simp, ?_⟩
      intro file hfile
      rw [text_join hfile, if_neg hp, if_neg hlast]

/-- Where an entry can be named, so can one whose name is part of that name. -/
theorem entryFault?_of_subset {p : Path} {f g : String} (hf : IsEntryName f) (hg : IsEntryName g)
    (hchars : ∀ c ∈ g.toList, c ∈ f.toList) (hsize : g.utf8ByteSize ≤ f.utf8ByteSize)
    (h : p.entryFault? f = none) : p.entryFault? g = none := by
  obtain ⟨start, -, hstart⟩ := p.text_join_eq_append
  rw [entryFault?_eq_none_iff hf, hstart f hf, String.toList_append, List.mem_append, not_or,
    String.utf8ByteSize_append] at h
  obtain ⟨⟨hnull, hnull'⟩, hlong, hpiece⟩ := h
  rw [entryFault?_eq_none_iff hg, hstart g hg, String.toList_append, List.mem_append, not_or,
    String.utf8ByteSize_append]
  exact ⟨⟨hnull, fun hc => hnull' (hchars _ hc)⟩, by omega, by omega⟩

/-- A path with room after it can be followed by the name of an entry. -/
theorem fault?_join_of_room {p : Path} {file : String} (hf : IsEntryName file)
    (hnull : '\x00' ∉ p.text.toList) (hfile : '\x00' ∉ file.toList)
    (hroom : p.text.utf8ByteSize + 1 + file.utf8ByteSize ≤ Disk.greatestPath) :
    (p.join file).fault? = none := by
  obtain ⟨start, hstart, htext⟩ := p.text_join_eq_append
  have hfits : '\x00' ∉ start.toList ∧ start.utf8ByteSize ≤ p.text.utf8ByteSize + 1 := by
    simp only [List.mem_cons, List.not_mem_nil, or_false] at hstart
    rcases hstart with rfl | rfl | rfl
    · exact ⟨by simp, by simp⟩
    · exact ⟨hnull, Nat.le_succ _⟩
    · refine ⟨?_, Nat.le_of_eq (String.utf8ByteSize_append ..)⟩
      rw [String.toList_append, List.mem_append]
      exact not_or.mpr ⟨hnull, by decide⟩
  have hjoined : '\x00' ∉ (p.join file).text.toList := by
    rw [htext file hf, String.toList_append, List.mem_append]
    exact not_or.mpr ⟨hfits.1, hfile⟩
  have hshort : ¬ Disk.greatestPath < (p.join file).text.utf8ByteSize := by
    rw [htext file hf, String.utf8ByteSize_append]
    omega
  rw [fault?, if_neg hjoined, if_neg (text_join_ne_empty hf), if_neg hshort]

/-- After such a path, the size of its name alone decides whether an entry can be named. -/
theorem entryFault?_eq_none_iff_of_room {p : Path} {file : String} (hf : IsEntryName file)
    (hnull : '\x00' ∉ p.text.toList) (hfile : '\x00' ∉ file.toList)
    (hroom : p.text.utf8ByteSize + 1 + file.utf8ByteSize ≤ Disk.greatestPath) :
    p.entryFault? file = none ↔ file.utf8ByteSize ≤ Disk.greatestPiece := by
  rw [entryFault?, fault?_join_of_room hf hnull hfile hroom]
  by_cases hlong : Disk.greatestPiece < file.utf8ByteSize
  · simp [hlong, Nat.not_le.mpr hlong]
  · simp [hlong, Nat.not_lt.mp hlong]

end Path

namespace Disk

/-! ## Reaching an entry -/

section Entry

variable {d : Disk} {p : Path} {dir : Place} {file : String}

theorem locate_join (hd : d.directoryAt p = .ok dir) (hf : IsEntryName file)
    (hu : (p.join file).fault? = none) : d.locate (p.join file) = .ok (.entry dir file false) := by
  have hlast : (p.join file).text.toList.getLast? ≠ some '/' := by
    have hne : file.toList ≠ [] := fun hc => hf.ne_empty (String.toList_inj.mp hc)
    obtain ⟨c, hc⟩ := Option.isSome_iff_exists.mp (List.getLast?_isSome.mpr hne)
    have hslash : c ≠ '/' := fun h => hf.no_slash (List.mem_of_getLast? (h ▸ hc))
    rw [Path.text_join hf]
    split
    · simpa [hc] using hslash
    · split <;> simpa [hc, List.getLast?_cons] using hslash
  have hstart : d.startOf (p.join file) = d.startOf p := by
    rw [startOf, startOf, Path.isAbsolute_join hf]
  have hwalk : d.walk (d.startOf p) (pieces p.text.toList) = .ok dir := hd
  rw [locate_of_usable hu]
  simp only [Path.pieces_join hf, List.getLast?_concat, List.dropLast_concat, hstart, hwalk,
    hf.ne_here, hf.ne_up, if_false, hlast, decide_false]

/-- An entry can be reached only where its directory is there. -/
theorem directoryAt_of_locate_join {spot : Spot} (hf : IsEntryName file)
    (h : d.locate (p.join file) = .ok spot) : ∃ dir, d.directoryAt p = .ok dir := by
  have hstart : d.startOf (p.join file) = d.startOf p := by
    rw [startOf, startOf, Path.isAbsolute_join hf]
  have hpieces := Path.pieces_join (p := p) hf
  rcases locate_eq_ok h with ⟨hnil, -⟩ | ⟨xs, last, dir, hps, hw, -⟩
  · rw [hpieces] at hnil
    exact absurd hnil (by simp)
  · rw [hpieces] at hps
    have hxs : pieces p.text.toList = xs := (List.append_inj' hps rfl).1
    exact ⟨dir, by rw [directoryAt, hxs, ← hstart, hw]⟩

/-- The path of an entry leads to no entry of another name. -/
theorem name_of_locate_join {name : String} {slash : Bool} (hf : IsEntryName file)
    (h : d.locate (p.join file) = .ok (.entry dir name slash)) : name = file := by
  rcases locate_eq_ok h with ⟨-, hspot⟩ | ⟨xs, last, place, hpieces, -, hspot⟩
  · exact absurd hspot (by simp)
  · rw [Path.pieces_join hf] at hpieces
    obtain rfl : file = last := List.singleton_inj.mp (List.append_inj' hpieces rfl).2
    rw [if_neg hf.ne_here, if_neg hf.ne_up] at hspot
    exact (Spot.entry.inj hspot).2.1

theorem directoryAt_of_find_join {x : Place × Node} (hf : IsEntryName file)
    (h : d.find (p.join file) = .ok x) : ∃ dir, d.directoryAt p = .ok dir := by
  unfold find at h
  cases hl : d.locate (p.join file) with
  | error e => rw [hl] at h; exact absurd h (by simp)
  | ok spot => exact directoryAt_of_locate_join hf hl

/-- What is read is found. -/
theorem find_of_readFile {content : ByteArray} (h : d.readFile p = .ok content) :
    ∃ x, d.find p = .ok x := by
  unfold readFile at h
  cases hfind : d.find p with
  | error e => rw [hfind] at h; exact absurd h (by simp)
  | ok x => exact ⟨x, rfl⟩

theorem find_join (hd : d.directoryAt p = .ok dir) (hf : IsEntryName file) :
    d.find (p.join file) = match p.entryFault? file with
      | some e => .error e
      | none => match d.node? (file :: dir) with
        | none => .error .notFound
        | some x => .ok (file :: dir, x) := by
  unfold find Path.entryFault?
  cases hu : (p.join file).fault? with
  | some e => rw [locate_of_fault hu]; rfl
  | none =>
    rw [locate_join hd hf hu]
    simp only [lookUp]
    by_cases hsize : greatestPiece < file.utf8ByteSize
    · simp [hsize]
    · simp only [hsize, if_false]
      cases d.node? (file :: dir) with
      | none => rfl
      | some x => cases x <;> rfl

/-- What is found under the path of an entry depends on what stands at its place alone. -/
theorem find_join_congr {d' : Disk} (hd : d.directoryAt p = .ok dir)
    (hd' : d'.directoryAt p = .ok dir) (hf : IsEntryName file)
    (h : d'.node? (file :: dir) = d.node? (file :: dir)) :
    d'.find (p.join file) = d.find (p.join file) := by
  rw [find_join hd hf, find_join hd' hf, h]

theorem exists?_join_eq_ok_iff (hd : d.directoryAt p = .ok dir) (hf : IsEntryName file)
    {b : Bool} : d.exists? (p.join file) = .ok b ↔
      p.entryFault? file = none ∧ b = (d.node? (file :: dir)).isSome := by
  rw [exists?, find_join hd hf]
  cases hu : p.entryFault? file with
  | some e =>
    -- no entry can be named wrongly in the way that counts as absence
    have hne : e ≠ .notFound := fun hc => Path.entryFault?_ne_notFound hf (hc ▸ hu)
    split
    · next h => exact absurd h (by simp)
    · next h => exact absurd (Except.error.inj h) hne
    · simp
  | none => cases d.node? (file :: dir) <;> simp [eq_comm]

/-- An entry that can be named and is not there is the only one that counts as missing. -/
theorem find_join_eq_notFound_iff (hd : d.directoryAt p = .ok dir) (hf : IsEntryName file) :
    d.find (p.join file) = .error .notFound ↔
      p.entryFault? file = none ∧ d.node? (file :: dir) = none := by
  rw [find_join hd hf]
  cases hu : p.entryFault? file with
  | some e =>
    have hne : e ≠ .notFound := fun hc => Path.entryFault?_ne_notFound hf (hc ▸ hu)
    simpa using hne
  | none => cases d.node? (file :: dir) <;> simp

/-- Where the directory cannot be reached, neither can any of its entries, however long their names
are. -/
theorem locate_join_of_error {e : OsError} (hd : d.directoryAt p = .error e)
    (hf : IsEntryName file) (hu : (p.join file).fault? = none) :
    d.locate (p.join file) = .error e := by
  have hstart : d.startOf (p.join file) = d.startOf p := by
    rw [startOf, startOf, Path.isAbsolute_join hf]
  have hwalk : d.walk (d.startOf p) (pieces p.text.toList) = .error e := hd
  rw [locate_of_usable hu]
  simp only [Path.pieces_join hf, List.getLast?_concat, List.dropLast_concat, hstart, hwalk]

/-- Where the directory is missing none of its entries is there. -/
theorem exists?_join_of_missing (hd : d.directoryAt p = .error .notFound) (hf : IsEntryName file)
    (hu : (p.join file).fault? = none) : d.exists? (p.join file) = .ok false := by
  rw [exists?, find, locate_join_of_error hd hf hu]

theorem readFile_join_eq_ok_iff (hd : d.directoryAt p = .ok dir) (hf : IsEntryName file)
    {content : ByteArray} : d.readFile (p.join file) = .ok content ↔
      p.entryFault? file = none ∧ d.node? (file :: dir) = some (.file content) := by
  rw [readFile, find_join hd hf]
  cases p.entryFault? file with
  | some e => simp
  | none =>
    cases d.node? (file :: dir) with
    | none => simp
    | some x => cases x <;> simp

theorem readFile_join_of_notFound (hd : d.directoryAt p = .ok dir) (hf : IsEntryName file)
    (hu : p.entryFault? file = none) (hn : d.node? (file :: dir) = none) :
    d.readFile (p.join file) = .error .notFound := by
  rw [readFile, find_join hd hf, hu, hn]

theorem writeFile_join (hd : d.directoryAt p = .ok dir) (hf : IsEntryName file)
    (content : ByteArray) :
    d.writeFile (p.join file) content = match p.entryFault? file with
      | some e => .error e
      | none =>
        if d.node? (file :: dir) = some .directory then .error .isADirectory
        else .ok (d.put file dir (.file content)) := by
  unfold writeFile Path.entryFault?
  cases hu : (p.join file).fault? with
  | some e => rw [locate_of_fault hu]; rfl
  | none =>
    rw [locate_join hd hf hu]
    simp only [lookUp]
    by_cases hsize : greatestPiece < file.utf8ByteSize
    · simp [hsize]
    · simp only [hsize, if_false]
      cases d.node? (file :: dir) with
      | none => simp
      | some x => cases x <;> simp

theorem removeFile_join (hd : d.directoryAt p = .ok dir) (hf : IsEntryName file) :
    d.removeFile (p.join file) = match p.entryFault? file with
      | some e => .error e
      | none => match d.node? (file :: dir) with
        | none => .error .notFound
        | some .directory => .error .isADirectory
        | some (.file _) => .ok (d.eraseFile (file :: dir)) := by
  unfold removeFile Path.entryFault?
  cases hu : (p.join file).fault? with
  | some e => rw [locate_of_fault hu]; rfl
  | none =>
    rw [locate_join hd hf hu]
    simp only [lookUp]
    by_cases hsize : greatestPiece < file.utf8ByteSize
    · simp [hsize]
    · simp only [hsize, if_false]
      cases d.node? (file :: dir) with
      | none => rfl
      | some x => cases x <;> simp

end Entry

end Disk

end FractalShader
