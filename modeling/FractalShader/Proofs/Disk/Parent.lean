import FractalShader.Proofs.Disk.Naming

/-!
# Files and the directories that lead to them

A file may be written together with the directories that lead to it.  Where its path
leads to an entry already, those directories are there, and the entry is all that
changes.

* `ofComponents_sublist` — the first components of a path, written down, take no more
  room than the path itself;
* `parent?_of_steps` — the parent of a path takes all of its steps but the last;
* `writeFileAndParents_of_locate` — the file is written, and nothing else happens.
-/

namespace FractalShader

/-! ## Shorter texts -/

theorem utf8ByteSize_le_of_sublist {s t : String} (h : s.toList.Sublist t.toList) :
    s.utf8ByteSize ≤ t.utf8ByteSize := by
  have key : ∀ {cs ds : List Char}, cs.Sublist ds →
      (String.ofList cs).utf8ByteSize ≤ (String.ofList ds).utf8ByteSize := by
    intro cs ds h
    induction h with
    | slnil => exact Nat.le_refl _
    | cons d _ ih =>
      rw [String.ofList_cons, String.utf8ByteSize_append]
      omega
    | cons_cons d _ ih =>
      rw [String.ofList_cons, String.ofList_cons, String.utf8ByteSize_append,
        String.utf8ByteSize_append]
      omega
  simpa using key h

/-- Fewer texts joined are part of more texts joined. -/
theorem intercalate_sublist {α : Type} (sep : List α) {xs ys : List (List α)}
    (h : xs.Sublist ys) : (sep.intercalate xs).Sublist (sep.intercalate ys) := by
  induction h with
  | slnil => exact List.Sublist.refl _
  | @cons xs ys y h ih =>
    cases ys with
    | nil => rw [List.sublist_nil.mp h]; exact List.nil_sublist _
    | cons z zs =>
      rw [List.intercalate_cons_cons]
      exact ih.trans (List.sublist_append_right _ _)
  | @cons_cons xs ys y h ih =>
    cases xs with
    | nil =>
      cases ys with
      | nil => exact List.Sublist.refl _
      | cons z zs =>
        rw [List.intercalate_singleton, List.intercalate_cons_cons, List.append_assoc]
        exact List.sublist_append_left _ _
    | cons x xs =>
      cases ys with
      | nil => exact absurd h (by simp)
      | cons z zs =>
        rw [List.intercalate_cons_cons, List.intercalate_cons_cons]
        exact ih.append_left _

/-- A text that is cut at a separator is joined again. -/
theorem intercalate_fields (sep : Char) (cs : List Char) : [sep].intercalate (fields sep cs) = cs := by
  induction cs with
  | nil => rfl
  | cons c cs ih =>
    rw [fields]
    split
    · next hc =>
      rw [List.intercalate_cons_of_ne_nil (fields_ne_nil sep cs), ih, hc]
      rfl
    · split
      · next hf => exact absurd hf (fields_ne_nil sep cs)
      · next f fs hf => rw [List.intercalate_cons_cons_left, ← hf, ih]

/-- Some of the pieces of a text, joined by slashes, are part of the text. -/
theorem intercalate_pieces_sublist {xs : List String} {cs : List Char}
    (h : xs.Sublist (pieces cs)) : ("/".intercalate xs).toList.Sublist cs := by
  have hfields : (xs.map String.toList).Sublist (fields '/' cs) := by
    have hpieces := h.map String.toList
    rw [pieces, List.map_map] at hpieces
    have hid : (String.toList ∘ String.ofList) = id := by
      funext l
      simp
    rw [hid, List.map_id] at hpieces
    exact hpieces.trans List.filter_sublist
  rw [String.toList_intercalate]
  have := intercalate_sublist ['/'] hfields
  rwa [intercalate_fields] at this

namespace Path

/-! ## The way to a path -/

/-- The first components of a path, written down, are part of what was written for it. -/
theorem ofComponents_sublist {p : Path} {cs : List Component} (h : cs <+: p.components) :
    (ofComponents cs).text.toList.Sublist p.text.toList := by
  rcases prefix_components h with rfl | ⟨zs, hzs, rfl⟩
  · exact List.nil_sublist _
  · unfold lead
    split
    · next habsolute =>
      obtain ⟨rest, hrest⟩ := List.head?_eq_some_iff.mp (of_decide_eq_true habsolute)
      have hpieces : zs.Sublist (pieces rest) := by
        rw [← pieces_cons_slash, ← hrest]
        exact hzs.sublist.trans List.filter_sublist
      rw [ofComponents_root, hrest, String.toList_append]
      exact (intercalate_pieces_sublist hpieces).cons_cons '/'
    · split
      · next hhead =>
        obtain ⟨more, hmore⟩ := List.head?_eq_some_iff.mp hhead
        have hzs : zs.Sublist more := by
          rw [steps, hmore, List.filter_cons_of_neg (by simp)] at hzs
          exact hzs.sublist.trans List.filter_sublist
        rw [ofComponents_here]
        apply intercalate_pieces_sublist
        rw [hmore]
        exact hzs.cons_cons "."
      · rw [ofComponents_steps]
        exact intercalate_pieces_sublist (hzs.sublist.trans List.filter_sublist)

/-- Where a path may be spelled as it is, so may the way to it. -/
theorem fault?_ofComponents {p : Path} {cs : List Component} (h : cs <+: p.components)
    (hf : p.fault? = none) :
    (ofComponents cs).fault? = none ∨ (ofComponents cs).text = "" := by
  have hsub := ofComponents_sublist h
  have hsize := utf8ByteSize_le_of_sublist hsub
  by_cases hne : (ofComponents cs).text = ""
  · exact .inr hne
  · left
    unfold fault? at hf ⊢
    split at hf
    · exact absurd hf (by simp)
    · next hnull =>
      split at hf
      · exact absurd hf (by simp)
      · split at hf
        · exact absurd hf (by simp)
        · next hlong => rw [if_neg fun hc => hnull (hsub.subset hc), if_neg hne, if_neg (by omega)]

/-- The parent of a path begins where the path does, and takes all its steps but the last. -/
theorem parent?_of_steps {p : Path} {front : List String} {file : String}
    (hsteps : p.steps = front ++ [file]) (hup : file ≠ "..") :
    ∃ q, p.parent? = some q ∧ q.isAbsolute = p.isAbsolute ∧ q.steps = front ∧
      (p.fault? = none → q.fault? = none ∨ q.text = "") := by
  have hcomponents : p.components =
      (p.lead ++ front.map Component.ofPiece) ++ [.normal file] := by
    rw [components_eq, hsteps, List.map_append, List.append_assoc, List.map_singleton,
      Component.ofPiece, if_neg hup]
  have hprefix : p.lead ++ front.map Component.ofPiece <+: p.components := by
    rw [hcomponents]
    exact List.prefix_append _ _
  have hparent := components_ofComponents hprefix
  refine ⟨ofComponents (p.lead ++ front.map Component.ofPiece), ?_, ?_, ?_,
    fault?_ofComponents hprefix⟩
  · rw [parent?, hcomponents, List.getLast?_concat, List.dropLast_concat]
  · rw [Bool.eq_iff_iff, isAbsolute_iff, isAbsolute_iff, hparent, hcomponents]
    cases p.lead ++ front.map Component.ofPiece with
    | nil => simp
    | cons c cs => simp
  · have hlast := steps_eq_filterMap p
    rw [hcomponents, List.filterMap_append, hsteps] at hlast
    rw [steps_eq_filterMap, hparent]
    exact (List.append_inj_left' hlast rfl).symm

end Path

namespace Disk

variable {d : Disk} {p : Path} {dir : Place} {file : String}

theorem writeFile_of_locate (hl : d.locate p = .ok (.entry dir file false))
    (hsize : file.utf8ByteSize ≤ greatestPiece) (hn : d.node? (file :: dir) ≠ some .directory)
    (content : ByteArray) :
    ∃ d', d.writeFile p content = .ok d' ∧ d.Patched dir [(file, some content)] d' := by
  refine ⟨_, ?_, patched_put (node?_of_locate hl) hn content⟩
  have hlook : d.lookUp dir file = .ok (d.node? (file :: dir)) := lookUp_eq_ok_iff.mpr ⟨hsize, rfl⟩
  rw [writeFile, hl]
  simp only [Bool.false_eq_true, if_false, hlook]

theorem writeFileAndParents_of_locate (hl : d.locate p = .ok (.entry dir file false))
    (hsize : file.utf8ByteSize ≤ greatestPiece) (hn : d.node? (file :: dir) ≠ some .directory)
    (content : ByteArray) :
    ∃ d', d.writeFileAndParents p content = .ok d' ∧
      d.Patched dir [(file, some content)] d' := by
  obtain ⟨front, last, place, hsteps, hup, hwalk, hplace⟩ := names_of_locate hl
  obtain ⟨rfl, rfl⟩ := List.cons.inj hplace
  obtain ⟨q, hq, habsolute, hfront, husable⟩ := Path.parent?_of_steps hsteps hup
  have hdir : d.directoryAt q = .ok dir := by
    rw [directoryAt_eq_walk_steps, hfront, startOf, habsolute]
    exact hwalk
  obtain ⟨hdisk, hresult⟩ := makeDirectories_of_directoryAt hdir
  have hmade : d.makeDirectories q = (d, .ok ()) :=
    Prod.ext hdisk (hresult (husable (fault?_of_locate hl)))
  rw [writeFileAndParents, hq]
  simp only [hmade]
  exact writeFile_of_locate hl hsize hn content

end Disk

end FractalShader
