import FractalShader.Proofs.Path.Join

/-!
# The directories on the way to a path

Each directory on the way to a path is written down from its components, and
read again it has those components.

* `pieces_intercalate` — what stands between the slashes of a joined text;
* `components_ofComponents` — the first components of a path, written down and
  read again;
* `ancestor_components`, `ancestor_steps` — every ancestor starts as the path
  itself does.
-/

namespace FractalShader

/-! ## Texts joined by slashes -/

/-- Pieces that are joined by slashes are found again. -/
theorem pieces_intercalate (xs : List String) (h : ∀ s ∈ xs, s ≠ "" ∧ '/' ∉ s.toList) :
    pieces ("/".intercalate xs).toList = xs := by
  induction xs with
  | nil => rfl
  | cons x xs ih =>
    have hx := h x List.mem_cons_self
    have ih := ih fun s hs => h s (List.mem_cons_of_mem x hs)
    cases xs with
    | nil => rw [String.intercalate_singleton, pieces_of_slash_not_mem hx.1 hx.2]
    | cons y ys =>
      have hsep : (x ++ "/" ++ "/".intercalate (y :: ys)).toList
          = x.toList ++ '/' :: ("/".intercalate (y :: ys)).toList := by
        simp [-String.toList_intercalate]
      rw [String.intercalate_cons_cons, hsep, pieces_append_slash, ih,
        pieces_of_slash_not_mem hx.1 hx.2]
      rfl

/-! ## Components -/

namespace Component

/-- The component for which a piece of a path stands. -/
def ofPiece (s : String) : Component := if s = ".." then .up else .normal s

/-- The piece that takes a path on, for a component that does. -/
def step? : Component → Option String
  | root => none
  | here => none
  | up => some ".."
  | normal name => some name

theorem text_ofPiece (s : String) : (ofPiece s).text = s := by
  unfold ofPiece
  split
  · next h => exact h.symm
  · rfl

theorem step?_ofPiece (s : String) : (ofPiece s).step? = some s := by
  unfold ofPiece
  split
  · next h => rw [h]; rfl
  · rfl

theorem filterMap_step? (xs : List String) : (xs.map ofPiece).filterMap step? = xs := by
  induction xs with
  | nil => rfl
  | cons x xs ih => rw [List.map_cons, List.filterMap_cons, step?_ofPiece, ih]

end Component

namespace Path

/-- The pieces that take a path on, in order. -/
def steps (p : Path) : List String := (pieces p.text.toList).filter (· ≠ ".")

/-- With what the components of a path start, before its steps. -/
def lead (p : Path) : List Component :=
  if p.isAbsolute then [.root] else if (pieces p.text.toList).head? = some "." then [.here] else []

theorem components_eq (p : Path) : p.components = p.lead ++ p.steps.map Component.ofPiece := rfl

theorem lead_cases (p : Path) : p.lead = [.root] ∨ p.lead = [.here] ∨ p.lead = [] := by
  unfold lead
  split
  · exact .inl rfl
  · split
    · exact .inr (.inl rfl)
    · exact .inr (.inr rfl)

theorem mem_steps {p : Path} {s : String} (h : s ∈ p.steps) :
    s ≠ "" ∧ '/' ∉ s.toList ∧ s ≠ "." := by
  obtain ⟨hs, hne⟩ := List.mem_filter.mp h
  exact ⟨(mem_pieces hs).1, (mem_pieces hs).2, by simpa using hne⟩

theorem steps_eq_filterMap (p : Path) : p.steps = p.components.filterMap Component.step? := by
  rw [components_eq, List.filterMap_append, Component.filterMap_step?]
  rcases p.lead_cases with h | h | h
  · rw [h]; rfl
  · rw [h]; rfl
  · rw [h]; rfl

/-- No component of a path holds a slash. -/
theorem slash_not_mem_component {p : Path} {name : String} (h : .normal name ∈ p.components) :
    '/' ∉ name.toList := by
  have hstep : name ∈ p.steps := by
    rw [steps_eq_filterMap]
    exact List.mem_filterMap.mpr ⟨.normal name, h, rfl⟩
  exact (mem_steps hstep).2.1

theorem isAbsolute_iff (p : Path) :
    p.isAbsolute = true ↔ p.components.head? = some .root := by
  rw [components_eq, lead]
  by_cases h : p.isAbsolute = true
  · simp [h]
  · simp only [h, Bool.false_eq_true, if_false, false_iff]
    split
    · simp
    · cases p.steps with
      | nil => simp
      | cons s ss =>
        unfold Component.ofPiece
        simp only [List.nil_append, List.map_cons, List.head?_cons, Option.some.injEq]
        split <;> simp

/-! ## Writing components down -/

/-- A text that starts with a piece starts with no slash. -/
theorem head?_intercalate_ne_slash {x : String} (xs : List String) (hx : x ≠ "")
    (hs : '/' ∉ x.toList) : ("/".intercalate (x :: xs)).toList.head? ≠ some '/' := by
  have hne : x.toList ≠ [] := fun hc => hx (String.toList_inj.mp hc)
  obtain ⟨c, cs, hcs⟩ := List.exists_cons_of_ne_nil hne
  have hc : c ≠ '/' := by
    rintro rfl
    exact hs (by rw [hcs]; exact List.mem_cons_self)
  have hhead : ("/".intercalate (x :: xs)).toList.head? = some c := by
    cases xs with
    | nil => rw [String.intercalate_singleton, hcs]; rfl
    | cons y ys =>
      rw [String.intercalate_cons_cons, String.toList_append, String.toList_append, hcs]
      rfl
  rw [hhead]
  simpa using hc

/-- The components of a path whose text has these pieces. -/
theorem components_of_pieces {q : Path} {lead : List Component} {xs : List String}
    (ps : List String) (hps : pieces q.text.toList = ps) (hx : ps.filter (· ≠ ".") = xs)
    (hlead : (if q.isAbsolute then [.root]
      else if ps.head? = some "." then [.here] else []) = lead) :
    q.components = lead ++ xs.map Component.ofPiece := by
  rw [components_eq, Path.lead, steps, hps, hx, hlead]

theorem map_text_ofPiece (xs : List String) :
    (xs.map Component.ofPiece).map Component.text = xs := by
  rw [List.map_map]
  exact (List.map_congr_left fun s _ => Component.text_ofPiece s).trans (List.map_id xs)

theorem ofComponents_root (xs : List String) :
    ofComponents ([.root] ++ xs.map Component.ofPiece) = ⟨"/" ++ "/".intercalate xs⟩ := by
  cases xs with
  | nil => rfl
  | cons x xs =>
    show (⟨"/".intercalate (([Component.root] ++ (x :: xs).map Component.ofPiece).map
      Component.text)⟩ : Path) = _
    rw [List.map_append, map_text_ofPiece, List.map_singleton, List.singleton_append,
      String.intercalate_cons_cons]
    simp [Component.text]

theorem ofComponents_here (xs : List String) :
    ofComponents ([.here] ++ xs.map Component.ofPiece) = ⟨"/".intercalate ("." :: xs)⟩ := by
  show (⟨"/".intercalate (([Component.here] ++ xs.map Component.ofPiece).map
    Component.text)⟩ : Path) = _
  rw [List.map_append, map_text_ofPiece]
  rfl

theorem ofComponents_steps (xs : List String) :
    ofComponents ([] ++ xs.map Component.ofPiece) = ⟨"/".intercalate xs⟩ := by
  rw [List.nil_append]
  unfold ofComponents
  split
  · next h =>
    -- no piece stands for the slash of an absolute path
    cases xs with
    | nil => exact absurd h (by simp)
    | cons x xs =>
      have := congrArg Component.step? (List.cons.inj h).1
      rw [Component.step?_ofPiece] at this
      exact absurd this (by simp [Component.step?])
  · rw [map_text_ofPiece]

theorem components_ofComponents_of_steps (start : List Component) (xs : List String)
    (hs : start = [.root] ∨ start = [.here] ∨ start = [])
    (hx : ∀ s ∈ xs, s ≠ "" ∧ '/' ∉ s.toList ∧ s ≠ ".") :
    (ofComponents (start ++ xs.map Component.ofPiece)).components
      = start ++ xs.map Component.ofPiece := by
  have hfilter : xs.filter (· ≠ ".") = xs :=
    List.filter_eq_self.mpr fun s h => by simpa using (hx s h).2.2
  have hpieces : pieces ("/".intercalate xs).toList = xs :=
    pieces_intercalate xs fun s h => ⟨(hx s h).1, (hx s h).2.1⟩
  rcases hs with rfl | rfl | rfl
  · have hlist : ("/" ++ "/".intercalate xs).toList = '/' :: ("/".intercalate xs).toList := by
      simp [-String.toList_intercalate]
    rw [ofComponents_root]
    refine components_of_pieces xs ?_ hfilter ?_
    · rw [hlist, pieces_cons_slash, hpieces]
    · rw [if_pos]
      rw [isAbsolute, hlist]
      rfl
  · rw [ofComponents_here]
    refine components_of_pieces ("." :: xs) ?_ (by simpa using hfilter) ?_
    · apply pieces_intercalate
      intro s h
      rcases List.mem_cons.mp h with rfl | h
      · decide
      · exact ⟨(hx s h).1, (hx s h).2.1⟩
    · have hrel := head?_intercalate_ne_slash xs (show "." ≠ "" by decide) (by decide)
      rw [if_neg, List.head?_cons, if_pos rfl]
      exact fun hc => hrel (of_decide_eq_true hc)
  · rw [ofComponents_steps]
    cases xs with
    | nil => rfl
    | cons x xs =>
      have h1 := hx x List.mem_cons_self
      refine components_of_pieces (x :: xs) hpieces hfilter ?_
      have hrel := head?_intercalate_ne_slash xs h1.1 h1.2.1
      rw [if_neg (by simpa [isAbsolute] using hrel), if_neg]
      simpa using h1.2.2

theorem prefix_map {α β : Type} {f : α → β} {ys : List α} {xs : List β} (h : xs <+: ys.map f) :
    ∃ zs, zs <+: ys ∧ xs = zs.map f :=
  ⟨ys.take xs.length, List.take_prefix _ _, by
    rw [List.map_take]
    exact List.prefix_iff_eq_take.mp h⟩

/-- The first components of a path are none, or with what it starts and then its first steps. -/
theorem prefix_components {p : Path} {cs : List Component} (h : cs <+: p.components) :
    cs = [] ∨ ∃ zs, zs <+: p.steps ∧ cs = p.lead ++ zs.map Component.ofPiece := by
  rw [components_eq] at h
  cases cs with
  | nil => exact .inl rfl
  | cons c cs =>
    right
    rcases p.lead_cases with hl | hl | hl
    · rw [hl, List.singleton_append, List.cons_prefix_cons] at h
      obtain ⟨rfl, h⟩ := h
      obtain ⟨zs, hzs, rfl⟩ := prefix_map h
      exact ⟨zs, hzs, by rw [hl]; rfl⟩
    · rw [hl, List.singleton_append, List.cons_prefix_cons] at h
      obtain ⟨rfl, h⟩ := h
      obtain ⟨zs, hzs, rfl⟩ := prefix_map h
      exact ⟨zs, hzs, by rw [hl]; rfl⟩
    · rw [hl, List.nil_append] at h
      obtain ⟨zs, hzs, heq⟩ := prefix_map h
      exact ⟨zs, hzs, by rw [hl, heq]; rfl⟩

/-- The first components of a path, written down, are read again as they are. -/
theorem components_ofComponents {p : Path} {cs : List Component} (h : cs <+: p.components) :
    (ofComponents cs).components = cs := by
  rcases prefix_components h with rfl | ⟨zs, hzs, rfl⟩
  · rfl
  · exact components_ofComponents_of_steps p.lead zs p.lead_cases fun s hm =>
      mem_steps (hzs.subset hm)

/-! ## Ancestors -/

theorem mem_lineage {ds cs : List Component} (h : cs ∈ lineage ds) : cs <:+ ds ∧ cs ≠ [] := by
  induction ds with
  | nil => exact absurd h (by simp [lineage])
  | cons d ds ih =>
    unfold lineage at h
    split at h
    · next heq => exact absurd heq (by simp)
    · exact absurd h (by simp)
    · next c above hne heq =>
      cases heq
      rcases List.mem_cons.mp h with rfl | h
      · exact ⟨List.suffix_refl _, by simp⟩
      · exact ⟨(ih h).1.trans (List.suffix_cons d ds), (ih h).2⟩

/-- A path of which nothing needs to be made has no step that takes it on. -/
theorem steps_of_ancestors_nil {p : Path} (h : p.ancestors = []) : p.steps = [] := by
  have hlin : lineage p.components.reverse = [] := by
    unfold ancestors at h
    split at h
    · next hl => exact hl
    · exact absurd h (by simp)
  rw [steps_eq_filterMap]
  cases hr : p.components.reverse with
  | nil => rw [List.reverse_eq_nil_iff.mp hr]; rfl
  | cons c above =>
    rw [hr] at hlin
    unfold lineage at hlin
    split at hlin
    · next heq => exact absurd heq (by simp)
    · next heq =>
      cases heq
      rw [List.reverse_eq_iff.mp hr]
      rfl
    · exact absurd hlin (by simp)

theorem ancestors_cons {p a : Path} {above : List Path} (h : p.ancestors = a :: above) :
    a = p ∧ p.components ≠ [] := by
  unfold ancestors at h
  split at h
  · exact absurd h (by simp)
  · next c cs hl =>
    refine ⟨(List.cons.inj h).1.symm, ?_⟩
    intro hc
    rw [hc] at hl
    simp [lineage] at hl

/-- A path that has components was written as something. -/
theorem text_ne_empty_of_components {p : Path} (h : p.components ≠ []) : p.text ≠ "" := by
  intro hc
  apply h
  rw [components, isAbsolute, hc]
  rfl

/-- Every ancestor of a path starts as the path does. -/
theorem ancestor_components {p a : Path} (h : a ∈ p.ancestors) :
    a.components <+: p.components ∧ a.components ≠ [] := by
  unfold ancestors at h
  split at h
  · exact absurd h (by simp)
  · next c above hl =>
    have hmem : ∀ cs ∈ c :: above, cs.reverse <+: p.components ∧ cs.reverse ≠ [] := by
      intro cs hcs
      rw [← hl] at hcs
      obtain ⟨hs, hne⟩ := mem_lineage hcs
      refine ⟨?_, by simpa using hne⟩
      rw [← List.reverse_suffix, List.reverse_reverse]
      exact hs
    rcases List.mem_cons.mp h with rfl | h
    · obtain ⟨hs, hne⟩ := hmem c List.mem_cons_self
      refine ⟨List.prefix_refl _, ?_⟩
      intro hc
      rw [hc] at hs
      exact hne (List.prefix_nil.mp hs)
    · obtain ⟨cs, hcs, rfl⟩ := List.mem_map.mp h
      obtain ⟨hs, hne⟩ := hmem cs (List.mem_cons_of_mem c hcs)
      rw [components_ofComponents hs]
      exact ⟨hs, hne⟩

/-- An ancestor starts where the path does, and its steps are the first steps of the path. -/
theorem ancestor_steps {p a : Path} (h : a ∈ p.ancestors) :
    a.isAbsolute = p.isAbsolute ∧ a.steps <+: p.steps := by
  obtain ⟨hpre, hne⟩ := ancestor_components h
  constructor
  · rw [Bool.eq_iff_iff, isAbsolute_iff, isAbsolute_iff]
    obtain ⟨rest, hrest⟩ := hpre
    obtain ⟨c, cs, hcs⟩ := List.exists_cons_of_ne_nil hne
    rw [← hrest, hcs, List.cons_append, List.head?_cons, List.head?_cons]
  · rw [steps_eq_filterMap, steps_eq_filterMap]
    exact hpre.filterMap _

end Path

end FractalShader
