import FractalShader.Kind.Spelling
import FractalShader.Proofs.Document.Members
import Mathlib

/-!
# What spells a kind

On a command line a kind is spelled by the letters of its name: separators may stand
anywhere, and the case of an ASCII letter does not count.  In a description document it
is tagged by its name as it is.  So whatever is the tag of a known kind is a spelling as
well, and of the same kind.

* `small`, `toLower_eq_small` — which characters have a small form;
* `bare`, `lowered` — a spelling without its separators, and a name, in small letters;
* `Respelled`, `respelled_iff` — texts that differ in separators and in case only, which
  are those that are the same when they are bare;
* `Searched`, `Searched.findSpelled_eq_some_iff` — vocabularies, and what the search
  through one finds;
* `SpelledAsTagged`, `spelled_as_tagged` — how kinds are spelled, for both vocabularies.
-/

namespace FractalShader

/-! ## Small letters -/

/-- The capital letters of ASCII, each with its small letter. -/
def alphabet : List (Char × Char) :=
  "ABCDEFGHIJKLMNOPQRSTUVWXYZ".toList.zip "abcdefghijklmnopqrstuvwxyz".toList

/-- A capital letter is made small; every other character stays as it is. -/
def small (c : Char) : Char := (alphabet.lookup c).getD c

theorem small_cases (c : Char) : small c = c ∨ (c, small c) ∈ alphabet := by
  rw [small]
  cases h : alphabet.lookup c with
  | none => exact .inl rfl
  | some d =>
    obtain ⟨front, back, heq, -⟩ := List.lookup_eq_some_iff.mp h
    right
    rw [heq]
    exact List.mem_append_right _ List.mem_cons_self

/-- Characters that only look like a letter have no small form. -/
theorem small_of_not_isUpper {c : Char} (h : c.isUpper = false) : small c = c := by
  have hcapital : ∀ p ∈ alphabet, p.1.isUpper = true := by decide
  rcases small_cases c with hsame | hmem
  · exact hsame
  · exact absurd (hcapital _ hmem) (by simp [h])

theorem toLower_eq_small (c : Char) : c.toLower = small c := by
  have hcapital : ∀ n ∈ List.range' 65 26, (Char.ofNat n).toLower = small (Char.ofNat n) := by
    decide
  by_cases h : c.isUpper = true
  · have hrange : c.toNat ∈ List.range' 65 26 := by
      simp only [Char.isUpper, decide_eq_true_eq, ge_iff_le, UInt32.le_iff_toNat_le] at h
      exact List.mem_range'_1.mpr ⟨h.1, Nat.lt_succ_of_le h.2⟩
    have hsmall := hcapital _ hrange
    rwa [Char.ofNat_toNat] at hsmall
  · rw [small_of_not_isUpper (Bool.eq_false_iff.mpr h), Char.toLower_eq_of_not_isUpper h]

/-- A text in small letters. -/
def lowered (s : String) : List Char := s.toList.map small

/-! ## Separators -/

/-- What may stand between the words of a spelling. -/
def separators : List Char := ['-', '_']

/-- A spelling without its separators, in small letters. -/
def bare (cs : List Char) : List Char := (cs.filter fun c => c ∉ separators).map small

section Bare

variable {c d : Char} {s t : List Char}

theorem bare_separator (h : c ∈ separators) : bare (c :: s) = bare s := by
  rw [bare, List.filter_cons_of_neg (by simpa using h), bare]

theorem bare_letter (h : c ∉ separators) : bare (c :: s) = small c :: bare s := by
  rw [bare, List.filter_cons_of_pos (by simpa using h), List.map_cons, bare]

/-- No separator is a letter. -/
theorem small_mem_separators_iff : small c ∈ separators ↔ c ∈ separators := by
  have hletters : ∀ p ∈ alphabet, p.1 ∉ separators ∧ p.2 ∉ separators := by decide
  rcases small_cases c with hsame | hmem
  · rw [hsame]
  · exact iff_of_false (hletters _ hmem).2 (hletters _ hmem).1

/-- Two texts that differ in nothing but the separators that they hold, anywhere and any number of
them, and the case of their letters. -/
inductive Respelled : List Char → List Char → Prop where
  | nil : Respelled [] []
  | deleted {c : Char} {s t : List Char} (hc : c ∈ separators) (h : Respelled s t) :
      Respelled (c :: s) t
  | inserted {c : Char} {s t : List Char} (hc : c ∈ separators) (h : Respelled s t) :
      Respelled s (c :: t)
  | letter {c d : Char} {s t : List Char} (hc : small c = small d) (h : Respelled s t) :
      Respelled (c :: s) (d :: t)

theorem Respelled.bare_eq (h : Respelled s t) : bare s = bare t := by
  induction h with
  | nil => rfl
  | deleted hc _ ih => rw [bare_separator hc, ih]
  | inserted hc _ ih => rw [bare_separator hc, ih]
  | @letter c d s t hc _ ih =>
    by_cases hsep : c ∈ separators
    · have hsep' : d ∈ separators := by
        rwa [← small_mem_separators_iff, ← hc, small_mem_separators_iff]
      rw [bare_separator hsep, bare_separator hsep', ih]
    · have hsep' : d ∉ separators := by
        rwa [← small_mem_separators_iff, ← hc, small_mem_separators_iff]
      rw [bare_letter hsep, bare_letter hsep', hc, ih]

/-- The texts are gone through side by side: whichever has a separator next goes ahead. -/
theorem respelled_of_bare_eq (h : bare s = bare t) : Respelled s t := by
  induction s generalizing t with
  | nil =>
    induction t with
    | nil => exact .nil
    | cons d t ih =>
      by_cases hd : d ∈ separators
      · exact .inserted hd (ih (h.trans (bare_separator hd)))
      · rw [bare_letter hd] at h
        exact absurd h (by simp [bare])
  | cons c s ihs =>
    by_cases hc : c ∈ separators
    · exact .deleted hc (ihs ((bare_separator hc).symm.trans h))
    · induction t with
      | nil =>
        rw [bare_letter hc] at h
        exact absurd h (by simp [bare])
      | cons d t iht =>
        by_cases hd : d ∈ separators
        · exact .inserted hd (iht (h.trans (bare_separator hd)))
        · rw [bare_letter hc, bare_letter hd] at h
          obtain ⟨hletter, hrest⟩ := List.cons.inj h
          exact .letter hletter (ihs hrest)

theorem respelled_iff : Respelled s t ↔ bare s = bare t :=
  ⟨Respelled.bare_eq, respelled_of_bare_eq⟩

end Bare

theorem normalizeSpelling_eq (s : String) :
    normalizeSpelling s = String.ofList (bare s.toList) := by
  have hkept : (s.toList.filter fun c => c ≠ '-' ∧ c ≠ '_') =
      s.toList.filter fun c => c ∉ separators :=
    List.filter_congr fun c _ => by simp [separators]
  rw [normalizeSpelling, hkept, bare, funext toLower_eq_small]

theorem normalizeSpelling_eq_iff {s t : String} :
    normalizeSpelling s = normalizeSpelling t ↔ bare s.toList = bare t.toList := by
  rw [normalizeSpelling_eq, normalizeSpelling_eq, String.ofList_inj]

/-! ## Vocabularies -/

/-- How the kinds of a vocabulary are spelled, when `words` are the names of the known ones and
`other` stands for all that is not known.  An error says `opening` before what it quotes. -/
structure SpelledAsTagged {κ : Type} (opening : String) (words : List (String × κ)) (other : κ)
    (name : κ → String) (ofTag : String → κ) (parse : String → Except PresetError κ) : Prop where
  /-- The words are the names under which known kinds are shown. -/
  named : ∀ w k, (w, k) ∈ words ↔ k ≠ other ∧ w = name k
  /-- They are the tags that are known in documents. -/
  tagged : ∀ w k, (w, k) ∈ words ↔ k ≠ other ∧ k = ofTag w
  /-- A text spells the kinds whose word it is when it is bare. -/
  spelled_iff : ∀ s k, parse s = .ok k ↔ ∃ w, (w, k) ∈ words ∧ bare s.toList = lowered w
  /-- No two kinds have the same letters. -/
  unique : ∀ (s : String) (j k : κ), bare s.toList = lowered (name j) →
    bare s.toList = lowered (name k) → j = k
  /-- What spells no kind is refused, and shown as it was written. -/
  refused : ∀ s, (∀ w k, (w, k) ∈ words → bare s.toList ≠ lowered w) →
    parse s = .error (.unknownKind (opening ++ s ++ "'"))
  /-- Separators and case change neither the kind nor whether there is one. -/
  respelled : ∀ s t, Respelled s.toList t.toList → (parse s).toOption = (parse t).toOption
  /-- A tag that is known in documents spells the kind that it stands for there. -/
  tag_spells : ∀ tag, ofTag tag ≠ other → parse tag = .ok (ofTag tag)
  /-- The name of a known kind spells that kind. -/
  name_spells : ∀ k, k ≠ other → parse (name k) = .ok k

section Vocabulary

variable {κ : Type} {opening : String} {all : List κ} {other : κ} {name : κ → String}
  {ofTag : String → κ} {parse : String → Except PresetError κ} {s t : String} {j k : κ}

/-- The first kind of a vocabulary that is spelled by `s`. -/
def findSpelled (all : List κ) (name : κ → String) (s : String) : Option κ :=
  all.find? fun k => normalizeSpelling (name k) = normalizeSpelling s

theorem findSpelled_congr (h : bare s.toList = bare t.toList) :
    findSpelled all name s = findSpelled all name t := by
  rw [findSpelled, findSpelled, normalizeSpelling_eq_iff.mpr h]

/-- A vocabulary that is searched for spellings, and in which no kind is hidden behind another one
of the same letters. -/
structure Searched (opening : String) (all : List κ) (other : κ) (name : κ → String)
    (parse : String → Except PresetError κ) : Prop where
  parse_found : ∀ s k, findSpelled all name s = some k → parse s = .ok k
  parse_missing : ∀ s, findSpelled all name s = none →
    parse s = .error (.unknownKind (opening ++ s ++ "'"))
  mem_all : ∀ k, k ∈ all ↔ k ≠ other
  parse_name : ∀ k, k ∈ all → parse (name k) = .ok k
  other_missing : findSpelled all name (name other) = none
  bare_name : ∀ k, bare (name k).toList = lowered (name k)

namespace Searched

theorem parse_eq_ok_iff (h : Searched opening all other name parse) :
    parse s = .ok k ↔ findSpelled all name s = some k := by
  cases hfound : findSpelled all name s with
  | none => simp [h.parse_missing s hfound]
  | some k' => simp [h.parse_found s k' hfound]

/-- What is found is the kind of these letters. -/
theorem findSpelled_eq_some_iff (h : Searched opening all other name parse) :
    findSpelled all name s = some k ↔ k ≠ other ∧ bare s.toList = lowered (name k) := by
  constructor
  · intro hfound
    have hsame : normalizeSpelling (name k) = normalizeSpelling s := by
      simpa using List.find?_some hfound
    rw [normalizeSpelling_eq_iff, h.bare_name] at hsame
    exact ⟨(h.mem_all k).mp (List.mem_of_find?_eq_some hfound), hsame.symm⟩
  · rintro ⟨hk, hsame⟩
    rw [← h.bare_name] at hsame
    rw [findSpelled_congr hsame]
    exact h.parse_eq_ok_iff.mp (h.parse_name k ((h.mem_all k).mpr hk))

/-- What has the letters of `other` has those of no known kind. -/
theorem eq_other (h : Searched opening all other name parse)
    (hother : bare s.toList = lowered (name other)) (hk : bare s.toList = lowered (name k)) :
    k = other := by
  by_contra hne
  have hfound := h.findSpelled_eq_some_iff.mpr ⟨hne, hk⟩
  rw [← h.bare_name] at hother
  rw [findSpelled_congr hother, h.other_missing] at hfound
  cases hfound

theorem unique (h : Searched opening all other name parse)
    (hj : bare s.toList = lowered (name j)) (hk : bare s.toList = lowered (name k)) : j = k := by
  by_cases hother : j = other
  · subst hother
    exact (h.eq_other hj hk).symm
  · by_cases hother' : k = other
    · subst hother'
      exact h.eq_other hk hj
    · have hfound := h.findSpelled_eq_some_iff.mpr ⟨hother, hj⟩
      rw [h.findSpelled_eq_some_iff.mpr ⟨hother', hk⟩] at hfound
      exact (Option.some.inj hfound).symm

theorem mem_words_iff (h : Searched opening all other name parse) {w : String} :
    (w, k) ∈ all.map (fun k => (name k, k)) ↔ k ≠ other ∧ w = name k := by
  rw [List.mem_map, ← h.mem_all]
  constructor
  · rintro ⟨k', hk', heq⟩
    obtain ⟨rfl, rfl⟩ := Prod.mk.inj heq
    exact ⟨hk', rfl⟩
  · rintro ⟨hk, rfl⟩
    exact ⟨k, hk, rfl⟩

/-- Where tags stand for the kinds of these names, kinds are spelled as they are tagged. -/
theorem spelledAsTagged (h : Searched opening all other name parse)
    (htag : ∀ tag k, Tagged name other tag k ↔ k = ofTag tag) :
    SpelledAsTagged opening (all.map fun k => (name k, k)) other name ofTag parse := by
  have hspelled : ∀ s k, parse s = .ok k ↔ k ≠ other ∧ bare s.toList = lowered (name k) :=
    fun s k => h.parse_eq_ok_iff.trans h.findSpelled_eq_some_iff
  have htagged : ∀ tag k, k ≠ other → (k = ofTag tag ↔ tag = name k) := by
    intro tag k hk
    rw [← htag, Tagged, or_iff_left fun hnone => hk hnone.1, eq_comm]
  constructor
  case named => exact fun w k => h.mem_words_iff
  case tagged =>
    intro w k
    rw [h.mem_words_iff]
    exact and_congr_right fun hk => (htagged w k hk).symm
  case spelled_iff =>
    intro s k
    rw [hspelled]
    constructor
    · rintro ⟨hk, hsame⟩
      exact ⟨name k, h.mem_words_iff.mpr ⟨hk, rfl⟩, hsame⟩
    · rintro ⟨w, hw, hsame⟩
      obtain ⟨hk, rfl⟩ := h.mem_words_iff.mp hw
      exact ⟨hk, hsame⟩
  case unique => exact fun s j k => h.unique
  case refused =>
    intro s hnone
    cases hfound : findSpelled all name s with
    | none => exact h.parse_missing s hfound
    | some k =>
      obtain ⟨hk, hsame⟩ := h.findSpelled_eq_some_iff.mp hfound
      exact absurd hsame (hnone _ k (h.mem_words_iff.mpr ⟨hk, rfl⟩))
  case respelled =>
    intro s t hst
    have hsame : findSpelled all name s = findSpelled all name t := findSpelled_congr hst.bare_eq
    cases hfound : findSpelled all name t with
    | none => rw [h.parse_missing t hfound, h.parse_missing s (hsame.trans hfound)]; rfl
    | some k => rw [h.parse_found t k hfound, h.parse_found s k (hsame.trans hfound)]
  case tag_spells =>
    intro tag hknown
    have hname : tag = name (ofTag tag) := (htagged tag _ hknown).mp rfl
    rw [hspelled]
    exact ⟨hknown, (congrArg (fun w => bare w.toList) hname).trans (h.bare_name _)⟩
  case name_spells => exact fun k hk => (hspelled _ k).mpr ⟨hk, h.bare_name k⟩

end Searched

end Vocabulary

/-! ## Folds and distance functions -/

/-- The folds that are known, under their names. -/
def foldWords : List (String × FoldKind) :=
  [("PlaneFold", .planeFold), ("AbsFold", .absFold), ("SierpinskiFold", .sierpinskiFold),
    ("MengerFold", .mengerFold), ("SphereFold", .sphereFold), ("BoxFold", .boxFold),
    ("RotXFold", .rotXFold), ("RotYFold", .rotYFold), ("RotZFold", .rotZFold),
    ("ScaleTranslateFold", .scaleTranslateFold), ("ScaleOriginFold", .scaleOriginFold),
    ("OrbitColoring", .orbitColoring)]

/-- The distance functions that are known, under their names. -/
def sdfWords : List (String × SdfKind) :=
  [("Cone", .cone), ("HexPrism", .hexPrism), ("Sphere", .sphere), ("Capsule", .capsule),
    ("Torus", .torus), ("Box", .box), ("Tetrahedron", .tetrahedron), ("InfCross", .infCross),
    ("InfCrossXY", .infCrossXY), ("InfLine", .infLine), ("Julia", .julia), ("Julia2", .julia2),
    ("Mandelbrot", .mandelbrot)]

theorem FoldKind.searched : Searched "fold '" all unknown name parse where
  parse_found := by
    intro s k h
    rw [findSpelled] at h
    rw [FoldKind.parse, h]
  parse_missing := by
    intro s h
    rw [findSpelled] at h
    rw [FoldKind.parse, h]
  mem_all := fun _ => mem_all
  parse_name := fun _ => parse_name
  other_missing := rfl
  bare_name := by
    intro k
    cases k <;> rfl

theorem SdfKind.searched : Searched "sdf '" all unknown name parse where
  parse_found := by
    intro s k h
    rw [findSpelled] at h
    rw [SdfKind.parse, h]
  parse_missing := by
    intro s h
    rw [findSpelled] at h
    rw [SdfKind.parse, h]
  mem_all := fun _ => mem_all
  parse_name := fun _ => parse_name
  other_missing := rfl
  bare_name := by
    intro k
    cases k <;> rfl

/-- **Kinds are spelled as they are tagged.**  Whatever text is given for a fold or for a distance
function: it stands for a known kind exactly when, without hyphens and underscores and with its
ASCII letters made small, it is the name of that kind in small letters; then it stands for no other
kind, and so does every text that differs from it in hyphens, underscores and ASCII case only.
Everything else is refused by an error that quotes it.  The names that are shown and the tags that
are known in documents are the same words, and each of them stands for its own kind. -/
theorem spelled_as_tagged :
    SpelledAsTagged "fold '" foldWords .unknown FoldKind.name FoldKind.ofTag FoldKind.parse ∧
      SpelledAsTagged "sdf '" sdfWords .unknown SdfKind.name SdfKind.ofTag SdfKind.parse :=
  ⟨FoldKind.searched.spelledAsTagged fun _ _ => FoldKind.tagged_iff,
    SdfKind.searched.spelledAsTagged fun _ _ => SdfKind.tagged_iff⟩

end FractalShader
