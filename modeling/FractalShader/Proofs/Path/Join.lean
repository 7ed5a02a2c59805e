import FractalShader.Path

/-!
# The path of a directory's entry

A directory's path joined with the name of an entry has the pieces of the
directory and then that name.  This holds for every spelling of the directory,
the empty one included, and needs of the name only that it is one ordinary
piece.  A name that is more than one piece adds all of them, as long as it does
not start with a slash.

* `pieces_join`, `pieces_join_of_relative` — the pieces of a joined path;
* `components_join`, `nameIn?_join` — the entry is found in its directory again;
* `components_join_inj` — different names give different paths.
-/

namespace FractalShader

/-- A name under which a directory can have an entry: a single piece of a path that is neither
`.` nor `..`. -/
structure IsEntryName (file : String) : Prop where
  ne_empty : file ≠ ""
  no_slash : '/' ∉ file.toList
  ne_here : file ≠ "."
  ne_up : file ≠ ".."

instance (file : String) : Decidable (IsEntryName file) :=
  decidable_of_iff (file ≠ "" ∧ '/' ∉ file.toList ∧ file ≠ "." ∧ file ≠ "..")
    ⟨fun ⟨hempty, hslash, hhere, hup⟩ => ⟨hempty, hslash, hhere, hup⟩,
      fun h => ⟨h.ne_empty, h.no_slash, h.ne_here, h.ne_up⟩⟩

/-! ## Cutting at a slash -/

theorem fields_ne_nil (sep : Char) (cs : List Char) : fields sep cs ≠ [] := by
  cases cs with
  | nil => simp [fields]
  | cons c cs =>
    rw [fields]
    split
    · simp
    · split <;> simp

theorem fields_append_separator (sep : Char) (a b : List Char) :
    fields sep (a ++ sep :: b) = fields sep a ++ fields sep b := by
  induction a with
  | nil => simp [fields]
  | cons c cs ih =>
    rw [List.cons_append, fields, fields]
    split
    · rw [ih, List.cons_append]
    · rw [ih]
      cases hf : fields sep cs with
      | nil => exact absurd hf (fields_ne_nil sep cs)
      | cons f fs => rfl

theorem pieces_append_slash (a b : List Char) :
    pieces (a ++ '/' :: b) = pieces a ++ pieces b := by
  simp only [pieces, fields_append_separator, List.filter_append, List.map_append]

theorem pieces_nil : pieces [] = [] := rfl

/-- A text that is not empty and holds no slash is a single piece. -/
theorem pieces_of_slash_not_mem {s : String} (hne : s ≠ "") (hs : '/' ∉ s.toList) :
    pieces s.toList = [s] := by
  have hl : s.toList ≠ [] := fun h => hne (String.toList_inj.mp h)
  rw [pieces, fields_of_not_mem hs]
  simp [hl]

theorem pieces_cons_slash (a : List Char) : pieces ('/' :: a) = pieces a :=
  pieces_append_slash [] a

/-- Only a text of slashes has no pieces. -/
theorem eq_slash_of_pieces_eq_nil {cs : List Char} (h : pieces cs = []) : ∀ c ∈ cs, c = '/' := by
  induction cs with
  | nil => simp
  | cons c cs ih =>
    by_cases hc : c = '/'
    · subst hc
      rw [pieces_cons_slash] at h
      simpa using ih h
    · exfalso
      rw [pieces, fields, if_neg hc] at h
      split at h
      · simp at h
      · simp at h

/-! ## Joining -/

theorem IsEntryName.head?_ne_slash {file : String} (h : IsEntryName file) :
    file.toList.head? ≠ some '/' :=
  fun hc => h.no_slash (List.mem_of_head? hc)

theorem IsEntryName.pieces_eq {file : String} (h : IsEntryName file) :
    pieces file.toList = [file] :=
  pieces_of_slash_not_mem h.ne_empty h.no_slash

namespace Path

section Relative

variable {p : Path} {file : String}

/-- The text of a joined path: a slash is put in between unless there is one or nothing precedes
it. -/
theorem text_join_of_relative (h : file.toList.head? ≠ some '/') :
    (p.join file).text =
      if p.text = "" then file
      else if p.text.toList.getLast? = some '/' then p.text ++ file
      else p.text ++ "/" ++ file := by
  rw [join, if_neg h]
  split
  · rfl
  · split <;> rfl

theorem pieces_join_of_relative (h : file.toList.head? ≠ some '/') :
    pieces (p.join file).text.toList = pieces p.text.toList ++ pieces file.toList := by
  rw [text_join_of_relative h]
  split
  · next hp => rw [hp]; rfl
  · split
    · next hl =>
      obtain ⟨a, ha⟩ := List.getLast?_eq_some_iff.mp hl
      rw [String.toList_append, ha, List.append_assoc, List.singleton_append,
        pieces_append_slash, pieces_append_slash, pieces_nil, List.append_nil]
    · have hslash : (p.text ++ "/" ++ file).toList = p.text.toList ++ '/' :: file.toList := by
        simp
      rw [hslash, pieces_append_slash]

theorem isAbsolute_join_of_relative (h : file.toList.head? ≠ some '/') :
    (p.join file).isAbsolute = p.isAbsolute := by
  unfold isAbsolute
  rw [text_join_of_relative h]
  split
  · next hp =>
    rw [hp]
    simpa using h
  · next hp =>
    have hl : p.text.toList ≠ [] := fun hc => hp (String.toList_inj.mp hc)
    obtain ⟨c, cs, hcs⟩ := List.exists_cons_of_ne_nil hl
    split <;> simp [hcs]

end Relative

theorem text_join {p : Path} {file : String} (h : IsEntryName file) :
    (p.join file).text =
      if p.text = "" then file
      else if p.text.toList.getLast? = some '/' then p.text ++ file
      else p.text ++ "/" ++ file :=
  text_join_of_relative h.head?_ne_slash

theorem pieces_join {p : Path} {file : String} (h : IsEntryName file) :
    pieces (p.join file).text.toList = pieces p.text.toList ++ [file] := by
  rw [pieces_join_of_relative h.head?_ne_slash, h.pieces_eq]

theorem isAbsolute_join {p : Path} {file : String} (h : IsEntryName file) :
    (p.join file).isAbsolute = p.isAbsolute :=
  isAbsolute_join_of_relative h.head?_ne_slash

theorem components_join {p : Path} {file : String} (h : IsEntryName file) :
    (p.join file).components = p.components ++ [.normal file] := by
  have hhead : (pieces p.text.toList ++ [file]).head? = some "." ↔
      (pieces p.text.toList).head? = some "." := by
    cases pieces p.text.toList with
    | nil => simpa using h.ne_here
    | cons q qs => simp
  have hlast : ([file].filter (· ≠ ".")).map
      (fun s => if s = ".." then Component.up else .normal s) = [.normal file] := by
    simp [h.ne_here, h.ne_up]
  simp only [components, isAbsolute_join h, pieces_join h, List.filter_append, List.map_append,
    hlast, ← List.append_assoc, hhead]

/-- An entry of a directory is found under its name. -/
theorem nameIn?_join {p : Path} {file : String} (h : IsEntryName file) :
    p.nameIn? (p.join file) = some file :=
  nameIn?_eq_some_iff.mpr (components_join h)

/-- Different names give paths that differ in a component. -/
theorem components_join_inj {p : Path} {f g : String} (hf : IsEntryName f) (hg : IsEntryName g) :
    (p.join f).components = (p.join g).components ↔ f = g := by
  rw [components_join hf, components_join hg]
  simp

end Path

end FractalShader
