import FractalShader.Proofs.Disk.Parent
import FractalShader.Proofs.Store.Effects
import FractalShader.Proofs.Watch.Response

/-!
# The absolute path of a place

A watcher takes its store by an absolute path, and what happens to a file is reported
under such a path as well.  On a disk whose names are single pieces of a path, the
absolute path of a directory leads to it, and the path of an entry is that of its
directory and the name.

* `components_placePath`, `directoryAt_placePath` — how such a path is read, and where
  it leads;
* `RoomFor`, `entryFault?_placePath` — which entries can be named under it;
* `nameForDocument_placePath` — a document is known by its place;
* `start_yields` — what a watcher begins with.
-/

namespace FractalShader

open FractalShader.Action FractalShader.Disk

/-- A name that is a single piece of a path, holds no null and is not too long to be looked up. -/
structure IsPlainName (name : String) : Prop extends IsEntryName name where
  no_null : '\x00' ∉ name.toList
  short : name.utf8ByteSize ≤ greatestPiece

theorem mem_intercalate {c : Char} {sep : String} {xs : List String}
    (h : c ∈ (sep.intercalate xs).toList) : c ∈ sep.toList ∨ ∃ x ∈ xs, c ∈ x.toList := by
  induction xs with
  | nil => exact absurd h (by simp)
  | cons x xs ih =>
    by_cases hxs : xs = []
    · rw [hxs, String.intercalate_singleton] at h
      exact .inr ⟨x, List.mem_cons_self, h⟩
    · rw [String.intercalate_cons_of_ne_nil hxs, String.toList_append, String.toList_append,
        List.mem_append, List.mem_append] at h
      rcases h with (h | h) | h
      · exact .inr ⟨x, List.mem_cons_self, h⟩
      · exact .inl h
      · rcases ih h with hsep | ⟨y, hy, hc⟩
        · exact .inl hsep
        · exact .inr ⟨y, List.mem_cons_of_mem x hy, hc⟩

namespace Watch

variable {d d' : Disk} {q : Place} {file : String}

/-! ## Reading the path of a place -/

theorem components_placePath (h : ∀ name ∈ q, IsEntryName name) :
    (placePath q).components = [.root] ++ q.reverse.map Component.ofPiece := by
  have hpath : placePath q = Path.ofComponents ([.root] ++ q.reverse.map Component.ofPiece) :=
    (Path.ofComponents_root q.reverse).symm
  rw [hpath]
  apply Path.components_ofComponents_of_steps _ _ (.inl rfl)
  intro name hname
  have hentry := h name (List.mem_reverse.mp hname)
  exact ⟨hentry.ne_empty, hentry.no_slash, hentry.ne_here⟩

/-- The absolute path of a directory leads to it. -/
theorem directoryAt_placePath (h : ∀ name ∈ q, IsPlainName name)
    (hq : d.node? q = some .directory) : d.directoryAt (placePath q) = .ok q := by
  have hcomponents := components_placePath fun name hname => (h name hname).toIsEntryName
  have hstart : d.startOf (placePath q) = [] := by
    rw [startOf, if_pos]
    rw [Path.isAbsolute_iff, hcomponents]
    rfl
  have hsteps : (placePath q).steps = q.reverse := by
    rw [Path.steps_eq_filterMap, hcomponents, List.filterMap_append, Component.filterMap_step?]
    rfl
  rw [directoryAt_eq_walk_steps, hstart, hsteps]
  clear hcomponents hstart hsteps
  induction q with
  | nil => rfl
  | cons name dir ih =>
    have hname := h name List.mem_cons_self
    have hwalk := ih (fun name' hname' => h name' (List.mem_cons_of_mem _ hname')) (d.node?_tail hq)
    rw [List.reverse_cons, walk_concat name hwalk, enter, if_neg hname.ne_here,
      if_neg hname.ne_up, lookUp_eq_ok_iff.mpr ⟨hname.short, hq⟩]

/-- In the directory `q`, a name of so many bytes makes a path that is short enough. -/
def RoomFor (q : Place) (size : Nat) : Prop :=
  (placePath q).text.utf8ByteSize + 1 + size ≤ greatestPath

theorem RoomFor.mono {m n : Nat} (h : RoomFor q n) (hmn : m ≤ n) : RoomFor q m := by
  unfold RoomFor at h ⊢
  omega

/-- A name can be used in a directory where there is room for it. -/
theorem entryFault?_placePath (h : ∀ name ∈ q, IsPlainName name) (hf : IsPlainName file)
    (hroom : RoomFor q file.utf8ByteSize) : (placePath q).entryFault? file = none := by
  have hnull : '\x00' ∉ (placePath q).text.toList := by
    intro hc
    rw [placePath, String.toList_append, List.mem_append] at hc
    rcases hc with hc | hc
    · exact absurd hc (by decide)
    · rcases mem_intercalate hc with hc | ⟨name, hname, hc⟩
      · exact absurd hc (by decide)
      · exact (h name (List.mem_reverse.mp hname)).no_null hc
  exact (Path.entryFault?_eq_none_iff_of_room hf.toIsEntryName hnull hf.no_null hroom).mpr hf.short

/-- What stands in a directory has its name there. -/
theorem nameIn?_placePath (h : ∀ name ∈ file :: q, IsEntryName name) :
    (placePath q).nameIn? (placePath (file :: q)) = some file := by
  have hfile : Component.ofPiece file = .normal file :=
    if_neg (h file List.mem_cons_self).ne_up
  rw [Path.nameIn?_eq_some_iff, components_placePath h,
    components_placePath fun name hname => h name (List.mem_cons_of_mem _ hname),
    List.reverse_cons, List.map_append, List.map_singleton, hfile, List.append_assoc]

variable {s s' : Store} {n : String}

/-- A document is known by its place in the directory of the store. -/
theorem nameForDocument_placePath (hroot : s.root = placePath q)
    (h : ∀ name ∈ file :: q, IsEntryName name) :
    s.nameForDocument (placePath (file :: q)) = some n ↔
      file = s.documentFile n ∧ PresetName.IsValid n := by
  apply Store.nameForDocument_of_nameIn?
  rw [hroot]
  exact nameIn?_placePath h

/-! ## What a watcher begins with -/

/-- A watcher begins with the directory of its store, which it takes by its absolute path. -/
theorem start_yields (h : (start s).Yields d s' d') :
    ∃ q, d'.directoryAt s.root = .ok q ∧ s' = { s with root := placePath q } := by
  rw [start, yields_bind] at h
  obtain ⟨_, d₁, hmade, h⟩ := h
  obtain ⟨-, q, hq⟩ := Store.ensureRoot_yields hmade
  rw [yields_bind] at h
  obtain ⟨⟨place, node⟩, d₂, hask, h⟩ := h
  obtain ⟨hfind, rfl⟩ := yields_ask.mp hask
  simp only [yields_bind, yields_emit, yields_pure] at h
  obtain ⟨_, _, rfl, rfl, rfl⟩ := h
  have hf : s.root.fault? = none := by
    cases hf : s.root.fault? with
    | none => rfl
    | some e =>
      rw [find, locate_of_fault hf] at hfind
      exact absurd hfind (by simp)
  rw [find_of_directoryAt hf hq] at hfind
  obtain ⟨rfl, -⟩ := Prod.mk.inj (Except.ok.inj hfind)
  exact ⟨q, hq, rfl⟩

end Watch

end FractalShader
