import FractalShader.Proofs.Disk.Making
import FractalShader.Proofs.Disk.Reach

/-!
# Disks with proper names

Every name on the way to an entry of a real disk is one that an entry can have:
not empty, without a slash, and neither `.` nor `..`.  A disk that starts out so
stays so, because whatever is made or written is reached by a path and has a
piece of that path for its name.

* `Proper` — all names of a disk are of this kind;
* `isEntryName_of_locate` — a path leads to such names only;
* `Proper.patched`, `Proper.made`, `Proper.put` — what changes a disk keeps it proper;
* `proper_empty` — where a disk starts out.
-/

namespace FractalShader.Disk

/-- Every entry has a name that an entry can have. -/
def Proper (d : Disk) : Prop := ∀ name dir, d.node? (name :: dir) ≠ none → IsEntryName name

variable {d d' : Disk} {p : Path} {dir : Place} {file : String}

/-- A piece that is no step on the spot and no step up is a name. -/
theorem isEntryName_of_mem_pieces {cs : List Char} (h : file ∈ pieces cs) (hhere : file ≠ ".")
    (hup : file ≠ "..") : IsEntryName file :=
  ⟨(mem_pieces h).1, (mem_pieces h).2, hhere, hup⟩

/-- The entry to which a path leads has a proper name, even before it is there. -/
theorem isEntryName_of_locate {slash : Bool} (h : d.locate p = .ok (.entry dir file slash)) :
    IsEntryName file := by
  rcases locate_eq_ok h with ⟨-, hspot⟩ | ⟨xs, last, above, hpieces, -, hspot⟩
  · exact absurd hspot (by simp)
  · have hlast : last ∈ pieces p.text.toList := by
      rw [hpieces]
      exact List.mem_concat_self
    split at hspot
    · exact absurd hspot (by simp)
    · next hhere =>
      split at hspot
      · exact absurd hspot (by simp)
      · next hup =>
        rw [(Spot.entry.inj hspot).2.1]
        exact isEntryName_of_mem_pieces hlast hhere hup

/-- Each name on the way to where a walk ends was there at its start, or is one of its steps. -/
theorem isEntryName_of_walk {start next : Place} {xs : List String}
    (hxs : ∀ x ∈ xs, x ≠ "" ∧ '/' ∉ x.toList) (h : d.walk start xs = .ok next)
    (hnext : file :: dir <:+ next) : file :: dir <:+ start ∨ IsEntryName file := by
  induction xs generalizing start with
  | nil =>
    cases h
    exact .inl hnext
  | cons x xs ih =>
    rw [walk] at h
    split at h
    · next mid hmid =>
      rcases ih (fun y hy => hxs y (List.mem_cons_of_mem x hy)) h with hsuffix | hname
      · unfold enter at hmid
        split at hmid
        · cases hmid
          exact .inl hsuffix
        · next hhere =>
          split at hmid
          · cases hmid
            exact .inl (hsuffix.trans (List.tail_suffix start))
          · next hup =>
            split at hmid
            · exact absurd hmid (by simp)
            · exact absurd hmid (by simp)
            · exact absurd hmid (by simp)
            · cases hmid
              rcases List.suffix_cons_iff.mp hsuffix with heq | hstart
              · obtain ⟨rfl, -⟩ := List.cons.inj heq
                have hx := hxs file List.mem_cons_self
                exact .inr ⟨hx.1, hx.2, hhere, hup⟩
              · exact .inl hstart
      · exact .inr hname
    · exact absurd h (by simp)

namespace Proper

/-- All that leads to an existing directory is there. -/
theorem of_suffix (h : d.Proper) {q : Place} (hq : d.node? q = some .directory)
    (hsuffix : file :: dir <:+ q) : IsEntryName file := by
  refine h file dir ?_
  rw [node?_of_suffix hsuffix hq]
  simp

/-- Files are written under proper names. -/
theorem patched (h : d.Proper) {ps : Patches} (hp : d.Patched dir ps d')
    (hnames : ∀ f c, ps.lookup f = some (some c) → IsEntryName f) : d'.Proper := by
  intro name above hnode
  rcases hp.node?_eq_or (name :: above) with heq | ⟨f, c, heq, hl⟩
  · rw [heq] at hnode
    exact h name above hnode
  · obtain ⟨rfl, rfl⟩ := List.cons.inj heq
    cases c with
    | none => exact absurd (hp.entry_of_removed hl) hnode
    | some content => exact hnames name content hl

/-- Directories are made under proper names. -/
theorem made (h : d.Proper) {as : List Path} (hm : d.Made as d') : d'.Proper := by
  intro name above hnode
  rcases hm.place (name :: above) with heq | ⟨-, -, a, -, hled⟩
  · rw [heq] at hnode
    exact h name above hnode
  · have hpieces : ∀ x ∈ pieces a.text.toList, x ≠ "" ∧ '/' ∉ x.toList := fun _ => mem_pieces
    rcases isEntryName_of_walk hpieces hled (List.suffix_refl _) with hsuffix | hname
    · rw [startOf_keeps hm.keeps] at hsuffix
      exact h.of_suffix (d.node?_startOf a) hsuffix
    · exact hname

/-- An entry can be put anywhere under a proper name. -/
theorem put (h : d.Proper) (hfile : IsEntryName file) (dir : Place) (x : Node) :
    (d.put file dir x).Proper := by
  intro name above hnode
  cases hadmits : d.admits file dir x with
  | true =>
    rw [node?_put hadmits] at hnode
    split at hnode
    · next heq =>
      rw [(List.cons.inj heq).1]
      exact hfile
    · exact h name above hnode
  | false =>
    rw [Disk.put, dif_neg (by simp [hadmits])] at hnode
    exact h name above hnode

end Proper

/-- A disk with nothing on it but a properly named working directory. -/
theorem proper_empty {home : Place} (h : ∀ name ∈ home, IsEntryName name) :
    (Disk.empty home).Proper := by
  intro name dir hnode
  rw [node?_empty] at hnode
  split at hnode
  · next hsuffix => exact h name (hsuffix.subset List.mem_cons_self)
  · exact absurd rfl hnode

end FractalShader.Disk
