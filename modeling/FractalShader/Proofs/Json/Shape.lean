import FractalShader.Proofs.Json.Records

/-!
# The shape of a record's text

Whether a text makes a record does not depend on the record it starts from, nor on what
the fields are worth: it is a matter of shape.  `Fits` says it of members, each field once
at most and each value in its form; the values of a list are those of the first fields.

* `accepts_iff_fits`, `fills_iff_forall₂` — members and values make a record when they fit;
* `exists_readAll_iff` — so a text is read exactly when it is `Shaped`.
-/

namespace FractalShader.Json

/-! ## Shapes -/

/-- Members that fit fields of these names, whose values are written as `V` says.  Other members
are for open records only, and must have names too. -/
structure Fits (names : List String) (closed : Bool) (V : String → List Char → Prop)
    (ms : List (Option String × List Char)) : Prop where
  named : ∀ m ∈ ms, ∃ name, m.1 = some name ∧ (closed = true → name ∈ names)
  once : ∀ name ∈ names, (ms.map Prod.fst).count (some name) ≤ 1
  valued : ∀ name ∈ names, ∀ v, (some name, v) ∈ ms → V name v

/-- The text of a record: an object whose members fit, or a list of the values of the first
fields. -/
def Shaped (names : List String) (closed : Bool) (V : String → List Char → Prop)
    (text : List Char) : Prop :=
  (∃ ms, ObjectText ms text ∧ Fits names closed V ms) ∨
    ∃ vs, ListText vs text ∧ List.Forall₂ V (names.take vs.length) vs

section Fits

variable {names : List String} {closed : Bool} {V : String → List Char → Prop} {name : String}
  {v : List Char} {ms : List (Option String × List Char)}

theorem fits_nil : Fits names closed V [] :=
  ⟨by simp, by simp, by simp⟩

theorem not_fits_none : ¬ Fits names closed V ((none, v) :: ms) := by
  intro h
  obtain ⟨name, hname, -⟩ := h.named _ List.mem_cons_self
  cases hname

theorem fits_field_iff (hname : name ∈ names) : Fits names closed V ((some name, v) :: ms) ↔
    V name v ∧ some name ∉ ms.map Prod.fst ∧ Fits names closed V ms := by
  constructor
  · rintro ⟨hnamed, honce, hvalued⟩
    have hcount := honce name hname
    rw [List.map_cons, List.count_cons_self] at hcount
    refine ⟨hvalued name hname v List.mem_cons_self, ?_, ?_, ?_, ?_⟩
    · exact List.count_eq_zero.mp (by omega)
    · exact fun m hm => hnamed m (List.mem_cons_of_mem _ hm)
    · intro name' hname'
      have := honce name' hname'
      rw [List.map_cons, List.count_cons] at this
      omega
    · exact fun name' hname' v' hv' => hvalued name' hname' v' (List.mem_cons_of_mem _ hv')
  · rintro ⟨hv, hfresh, hnamed, honce, hvalued⟩
    refine ⟨?_, ?_, ?_⟩
    · exact List.forall_mem_cons.mpr ⟨⟨name, rfl, fun _ => hname⟩, hnamed⟩
    · intro name' hname'
      by_cases h : name' = name
      · subst h
        have hzero := List.count_eq_zero.mpr hfresh
        rw [List.map_cons, List.count_cons_self]
        omega
      · rw [List.map_cons, List.count_cons_of_ne (by simpa using fun heq => h heq.symm)]
        exact honce name' hname'
    · intro name' hname' v' hv'
      rcases List.mem_cons.mp hv' with heq | hv'
      · cases heq
        exact hv
      · exact hvalued name' hname' v' hv'

theorem fits_other_iff (hname : name ∉ names) : Fits names closed V ((some name, v) :: ms) ↔
    closed = false ∧ Fits names closed V ms := by
  have hne : ∀ name' ∈ names, name ≠ name' := by
    rintro name' hname' rfl
    exact hname hname'
  have hcount : ∀ name' ∈ names, (((some name, v) :: ms).map Prod.fst).count (some name')
      = (ms.map Prod.fst).count (some name') := by
    intro name' hname'
    rw [List.map_cons, List.count_cons_of_ne (by simpa using hne name' hname')]
  constructor
  · rintro ⟨hnamed, honce, hvalued⟩
    refine ⟨?_, ?_, ?_, ?_⟩
    · obtain ⟨name', heq, hclosed⟩ := hnamed _ List.mem_cons_self
      obtain rfl : name = name' := Option.some.inj heq
      rw [← Bool.not_eq_true]
      exact fun hc => hname (hclosed hc)
    · exact fun m hm => hnamed m (List.mem_cons_of_mem _ hm)
    · exact fun name' hname' => hcount name' hname' ▸ honce name' hname'
    · exact fun name' hname' v' hv' => hvalued name' hname' v' (List.mem_cons_of_mem _ hv')
  · rintro ⟨rfl, hnamed, honce, hvalued⟩
    refine ⟨?_, ?_, ?_⟩
    · exact List.forall_mem_cons.mpr ⟨⟨name, rfl, fun hc => absurd hc (by decide)⟩, hnamed⟩
    · exact fun name' hname' => (hcount name' hname').symm ▸ honce name' hname'
    · intro name' hname' v' hv'
      rcases List.mem_cons.mp hv' with heq | hv'
      · cases heq
        exact absurd rfl (hne _ hname')
      · exact hvalued name' hname' v' hv'

end Fits

/-! ## Records -/

section Records

variable {σ : Type} {schema : Schema σ} {form : String → List Char → σ → σ → Prop}
  {V : String → List Char → Prop} {s : σ} {seen : List String}

/-- The values that make a record of any other are those that `V` describes. -/
def Makes (names : List String) (form : String → List Char → σ → σ → Prop)
    (V : String → List Char → Prop) : Prop :=
  ∀ name ∈ names, ∀ v s, (∃ s', form name v s s') ↔ V name v

theorem accepts_seen_iff (h : Makes schema.names form V) {ms : List (Option String × List Char)}
    (hseen : ∀ k ∈ seen, k ∈ schema.names) : (∃ s', schema.Accepts form seen s ms s') ↔
      Fits schema.names schema.closed V ms ∧ ∀ k ∈ seen, some k ∉ ms.map Prod.fst := by
  induction ms generalizing seen s with
  | nil => exact ⟨fun _ => ⟨fits_nil, by simp⟩, fun _ => ⟨s, .done⟩⟩
  | cons m ms ih =>
    obtain ⟨name, v⟩ := m
    cases name with
    | none =>
      exact ⟨fun ⟨_, haccepts⟩ => absurd haccepts Schema.not_accepts_none,
        fun ⟨hfits, _⟩ => absurd hfits not_fits_none⟩
    | some name =>
      by_cases hname : name ∈ schema.names
      · have hseen' := List.forall_mem_cons.mpr ⟨hname, hseen⟩
        rw [fits_field_iff hname]
        simp only [Schema.accepts_field_iff hname]
        constructor
        · rintro ⟨s', hfresh, s₁, hform, haccepts⟩
          obtain ⟨hfits, hlater⟩ := (ih hseen').mp ⟨s', haccepts⟩
          obtain ⟨hself, hlater⟩ := List.forall_mem_cons.mp hlater
          refine ⟨⟨(h name hname v s).mp ⟨s₁, hform⟩, hself, hfits⟩, fun k hk hmem => ?_⟩
          rcases List.mem_cons.mp hmem with heq | hmem
          · exact hfresh (Option.some.inj heq ▸ hk)
          · exact hlater k hk hmem
        · rintro ⟨⟨hv, hself, hfits⟩, hlater⟩
          obtain ⟨s₁, hform⟩ := (h name hname v s).mpr hv
          have hrest : ∀ k ∈ seen, some k ∉ ms.map Prod.fst :=
            fun k hk hmem => hlater k hk (List.mem_cons_of_mem _ hmem)
          obtain ⟨s', haccepts⟩ :=
            (ih hseen' (s := s₁)).mpr ⟨hfits, List.forall_mem_cons.mpr ⟨hself, hrest⟩⟩
          exact ⟨s', fun hk => hlater name hk List.mem_cons_self, s₁, hform, haccepts⟩
      · rw [fits_other_iff hname]
        simp only [Schema.accepts_other_iff hname, exists_and_left, ih hseen, and_assoc,
          List.map_cons, List.mem_cons, not_or]
        refine and_congr_right fun _ => and_congr_right fun _ => ?_
        refine forall_congr' fun k => forall_congr' fun hk => ?_
        have hne : some k ≠ some name := by
          rintro heq
          exact hname (Option.some.inj heq ▸ hseen k hk)
        simp [hne]

/-- Members make a record exactly when they fit. -/
theorem accepts_iff_fits (h : Makes schema.names form V)
    {ms : List (Option String × List Char)} :
    (∃ s', schema.Accepts form [] s ms s') ↔ Fits schema.names schema.closed V ms := by
  rw [accepts_seen_iff h (by simp)]
  simp

/-- Values make a record exactly when they are those of the first fields. -/
theorem fills_iff_forall₂ {names : List String} (h : Makes names form V)
    {vs : List (List Char)} :
    (∃ s', Fills form names s vs s') ↔ List.Forall₂ V (names.take vs.length) vs := by
  induction vs generalizing names s with
  | nil => exact ⟨fun _ => by simp, fun _ => ⟨s, .done⟩⟩
  | cons v vs ih =>
    cases names with
    | nil =>
      constructor
      · rintro ⟨_, ⟨⟩⟩
      · rintro ⟨⟩
    | cons name names =>
      obtain ⟨hname, hnames⟩ := List.forall_mem_cons.mp h
      rw [List.length_cons, List.take_succ_cons, List.forall₂_cons]
      constructor
      · rintro ⟨s', hfills⟩
        obtain _ | ⟨hform, hfills⟩ := hfills
        exact ⟨(hname v s).mp ⟨_, hform⟩, (ih hnames).mp ⟨s', hfills⟩⟩
      · rintro ⟨hv, hvs⟩
        obtain ⟨s₁, hform⟩ := (hname v s).mpr hv
        obtain ⟨s', hfills⟩ := (ih hnames (s := s₁)).mpr hvs
        exact ⟨s', .more hform hfills⟩

/-- A text is read as a record exactly when it has the shape of one. -/
theorem exists_readAll_iff (hreads : Reads schema.fields form) (hmakes : Makes schema.names form V)
    (s : σ) (text : List Char) : (∃ s', readAll (readRecord schema s) text = .ok s') ↔
      Shaped schema.names schema.closed V text := by
  simp only [readAll_iff hreads, exists_or, Shaped, ← accepts_iff_fits hmakes (s := s),
    ← fills_iff_forall₂ hmakes (s := s)]
  refine or_congr ?_ ?_
  · exact ⟨fun ⟨s', ms, hms, h⟩ => ⟨ms, hms, s', h⟩, fun ⟨ms, hms, s', h⟩ => ⟨s', ms, hms, h⟩⟩
  · exact ⟨fun ⟨s', vs, hvs, h⟩ => ⟨vs, hvs, s', h⟩, fun ⟨vs, hvs, s', h⟩ => ⟨s', vs, hvs, h⟩⟩

end Records

end FractalShader.Json
