import FractalShader.Proofs.Json.Skipping
import Mathlib.Data.List.Forall2

/-!
# Strings and tags

The values of fields have smaller grammars of their own: a string that spells a text,
the tag of a kind, a list of tags.  A tag may also be written as an object whose only
member has the tag for its name and a null for its value.  Each reader is shown to
recognise its grammar: it reads every value of that form and nothing else.

* `Recognises.read_iff` — at a value, a reader succeeds exactly on its own forms;
* `recognises_string`, `recognises_tag`, `recognises_tags` — the readers of fields.
-/

namespace FractalShader.Json

/-! ## Recognising readers -/

/-- The reader reads the values that `V` describes, and nothing else.  None of them is a number, so
their ends do not depend on what follows. -/
structure Recognises {α : Type} (r : Reader α) (V : List Char → α → Prop) : Prop where
  complete : ∀ {w v rest : List Char} {a : α}, Blanks w → V v a →
    r (w ++ (v ++ rest)) = .ok (a, rest)
  sound : ∀ {cs rest : List Char} {a : α}, r cs = .ok (a, rest) →
    ∃ w v, Blanks w ∧ V v a ∧ cs = w ++ (v ++ rest)
  value : ∀ {v : List Char} {a : α}, V v a → IsValue v ∧ ¬ IsNumber v

section Recognises

variable {α : Type} {r : Reader α} {V : List Char → α → Prop} {w v rest left : List Char} {a : α}

theorem Recognises.read_iff (h : Recognises r V) (hw : Blanks w) (hv : IsValue v)
    (hr : EndsNumber rest) : r (w ++ (v ++ rest)) = .ok (a, left) ↔ V v a ∧ left = rest := by
  constructor
  · intro hread
    obtain ⟨w', v', hw', ha, heq⟩ := h.sound hread
    obtain ⟨hv', hnumber⟩ := h.value ha
    obtain ⟨rfl, rfl⟩ := hv.end_unique hv' hw hw' (fun _ => hr) (fun h => absurd h hnumber) heq
    exact ⟨ha, rfl⟩
  · rintro ⟨ha, rfl⟩
    exact h.complete hw ha

/-- A value has one reading. -/
theorem Recognises.unique {b : α} (h : Recognises r V) (ha : V v a) (hb : V v b) : a = b := by
  have hread : r ([] ++ (v ++ [])) = .ok (a, []) := h.complete blanks_nil ha
  rw [h.complete blanks_nil hb] at hread
  exact (Prod.mk.inj (Except.ok.inj hread)).1.symm

theorem Recognises.exists_iff {p : α → Prop} (h : Recognises r V) (ha : V v a) :
    (∃ b, V v b ∧ p b) ↔ p a :=
  ⟨fun ⟨_, hb, hp⟩ => h.unique hb ha ▸ hp, fun hp => ⟨a, ha, hp⟩⟩

/-- What a reader recognises is recognised as the value of a field. -/
theorem Recognises.field {σ : Type} (h : Recognises r V) (name : String) (store : σ → α → σ)
    (shorter : ∀ {a : α} {cs rest : List Char}, r cs = .ok (a, rest) → rest.length < cs.length)
    (s : σ) : Recognises ((Field.of name r store shorter).read s)
      fun v s' => ∃ a, V v a ∧ s' = store s a where
  complete := by
    rintro w v rest _ hw ⟨a, ha, rfl⟩
    show (r _).map _ = _
    rw [h.complete hw ha]
    rfl
  sound := by
    intro cs rest s' hread
    replace hread : (r cs).map (fun p => (store s p.1, p.2)) = .ok (s', rest) := hread
    cases hr : r cs with
    | error e => rw [hr] at hread; cases hread
    | ok p =>
      rw [hr] at hread
      cases hread
      obtain ⟨w, v, hw, hv, hcs⟩ := h.sound hr
      exact ⟨w, v, hw, ⟨p.1, hv, rfl⟩, hcs⟩
  value := fun ⟨_, ha, _⟩ => h.value ha

end Recognises

theorem not_isNumber {c : Char} {t : List Char} (hdigit : isDigit c = false) (hsign : c ≠ '-') :
    ¬ IsNumber (c :: t) := by
  rintro (h | ⟨m, -, h⟩)
  · obtain ⟨d, t', heq, hd⟩ := h.head
    obtain ⟨rfl, -⟩ := List.cons.inj heq
    rw [hdigit] at hd
    cases hd
  · exact hsign (List.cons.inj h).1

/-! ## Strings -/

variable {cs rest left : List Char} {s : String}

theorem readString_map_eq_ok_iff :
    (readString cs).map (fun p => (String.ofList p.1, p.2)) = .ok (s, rest) ↔
      ∃ v, Spells v s ∧ '"' :: cs = v ++ rest := by
  constructor
  · intro h
    cases hs : readString cs with
    | error e => rw [hs] at h; cases h
    | ok p =>
      rw [hs] at h
      cases h
      obtain ⟨body, ps, hb, hm, rfl⟩ := readString_sound hs
      exact ⟨_, ⟨body, ps, hb, String.toList_ofList.symm ▸ hm, rfl⟩, by simp⟩
  · rintro ⟨v, ⟨body, ps, hb, hm, rfl⟩, hcs⟩
    obtain rfl : cs = body ++ '"' :: rest := by simpa using hcs
    rw [readString_of_means hb hm]
    exact congrArg (fun t => Except.ok (t, rest)) String.ofList_toList

theorem Spells.isValue {v : List Char} (h : Spells v s) : IsValue v ∧ ¬ IsNumber v := by
  obtain ⟨body, ps, hb, -, rfl⟩ := h
  exact ⟨.string hb, not_isNumber (by decide) (by decide)⟩

theorem Spells.head {v : List Char} (h : Spells v s) : ∃ t, v = '"' :: t := by
  obtain ⟨body, ps, -, -, rfl⟩ := h
  exact ⟨_, rfl⟩

/-- The printer spells a string. -/
theorem spells_quote (s : String) : Spells (quote s) s := by
  obtain ⟨body, ps, hb, hm, heq⟩ := readString_sound (readString_quoteBody s.toList [])
  obtain rfl := List.append_cancel_right heq
  exact ⟨_, ps, hb, hm, by simp [quote]⟩

/-- The printer writes a member. -/
theorem member_quote {w : List Char} (hw : Blanks w) (name : String) (v : List Char) :
    Member (some name, v) (w ++ member name v) := by
  obtain ⟨body, ps, hb, hm, heq⟩ := spells_quote name
  have hname : Names ps (some name) := hm
  simpa [member, heq] using Member.mk (v := v) hw hb hname blanks_nil blanks_nil

theorem recognises_string : Recognises readStringValue Spells where
  complete := by
    intro w v rest s hw hv
    obtain ⟨t, rfl⟩ := hv.head
    rw [readStringValue, List.cons_append, hw.skipBlank_cons (by decide)]
    exact readString_map_eq_ok_iff.mpr ⟨_, hv, rfl⟩
  sound := by
    intro cs rest s h
    unfold readStringValue at h
    split at h
    · cases h
    next c r hblank =>
    obtain ⟨w, hw, rfl⟩ := blanks_of_skipBlank hblank
    split at h
    · next hc =>
      subst hc
      obtain ⟨v, hv, heq⟩ := readString_map_eq_ok_iff.mp h
      exact ⟨w, v, hw, hv, by rw [heq]⟩
    · cases h
  value := Spells.isValue

/-! ## Tags -/

/-- How the tag of a kind is written. -/
inductive IsTag : List Char → String → Prop where
  | string {v : List Char} {s : String} (h : Spells v s) : IsTag v s
  | object {es : List Char} {s : String}
      (h : Entries Member [(some s, ['n', 'u', 'l', 'l'])] es) :
      IsTag ('\x7b' :: (es ++ ['\x7d'])) s

/-- How a list of tags is written. -/
inductive IsTags : List Char → List String → Prop where
  | mk {vs : List (List Char)} {es : List Char} {tags : List String} (h : Entries Item vs es)
      (htags : List.Forall₂ IsTag vs tags) : IsTags ('[' :: (es ++ [']'])) tags

theorem readTagEnd_eq_ok_iff : readTagEnd cs = .ok left ↔ ∃ w₁ w₂ w₃, Blanks w₁ ∧ Blanks w₂ ∧
    Blanks w₃ ∧ cs = w₁ ++ ':' :: (w₂ ++ 'n' :: 'u' :: 'l' :: 'l' :: (w₃ ++ '\x7d' :: left)) := by
  unfold readTagEnd
  constructor
  · intro h
    split at h
    · cases h
    next r₁ hcolon =>
    obtain ⟨w₁, hw₁, rfl⟩ := readColon_eq_ok_iff.mp hcolon
    split at h
    · cases h
    next c r₂ hblank =>
    obtain ⟨w₂, hw₂, rfl⟩ := blanks_of_skipBlank hblank
    split at h
    · next hc =>
      split at h
      · cases h
      next r₃ hword =>
      obtain rfl := readWord_eq_ok hword
      split at h
      · cases h
      next d r₄ hblank' =>
      obtain ⟨w₃, hw₃, rfl⟩ := blanks_of_skipBlank hblank'
      split at h
      · next hd =>
        cases h
        exact ⟨w₁, w₂, w₃, hw₁, hw₂, hw₃, by rw [hc, hd]; rfl⟩
      · cases h
    · cases h
  · rintro ⟨w₁, w₂, w₃, hw₁, hw₂, hw₃, rfl⟩
    have hword : ∀ r, readWord ['u', 'l', 'l'] ('u' :: 'l' :: 'l' :: r) = .ok ((), r) :=
      readWord_append ['u', 'l', 'l']
    rw [readColon_eq_ok_iff.mpr ⟨w₁, hw₁, rfl⟩]
    simp only [hw₂.skipBlank_cons (c := 'n') (by decide), if_true, hword,
      hw₃.skipBlank_cons (c := '\x7d') (by decide)]

theorem IsTag.isValue {v : List Char} (h : IsTag v s) : IsValue v ∧ ¬ IsNumber v := by
  cases h with
  | string h => exact h.isValue
  | object h =>
    refine ⟨.object h ?_, not_isNumber (by decide) (by decide)⟩
    intro m hm
    rw [List.mem_singleton.mp hm]
    exact .null

theorem readTag_spells {v : List Char} (h : Spells v s) : readTag (v ++ rest) = .ok (s, rest) := by
  obtain ⟨t, rfl⟩ := h.head
  rw [List.cons_append, readTag, skipBlank_cons (by decide)]
  exact readString_map_eq_ok_iff.mpr ⟨_, h, rfl⟩

theorem readTag_object {es : List Char} (h : Entries Member [(some s, ['n', 'u', 'l', 'l'])] es) :
    readTag ('\x7b' :: (es ++ '\x7d' :: rest)) = .ok (s, rest) := by
  obtain ⟨⟩ | ⟨h, ⟨hw₃⟩⟩ := h
  obtain ⟨hw, hbody, hname, hw₁, hw₂⟩ := h
  rename_i w₃ w body w₁ w₂ ps
  have hend : readTagEnd (w₁ ++ ':' :: (w₂ ++ 'n' :: 'u' :: 'l' :: 'l' :: (w₃ ++ '\x7d' :: rest)))
      = .ok rest := readTagEnd_eq_ok_iff.mpr ⟨w₁, w₂, w₃, hw₁, hw₂, hw₃, rfl⟩
  have hstring := readString_of_means hbody hname
    (w₁ ++ ':' :: (w₂ ++ 'n' :: 'u' :: 'l' :: 'l' :: (w₃ ++ '\x7d' :: rest)))
  rw [readTag, skipBlank_cons (by decide)]
  simp only [List.append_assoc, List.cons_append, List.nil_append,
    hw.skipBlank_cons (c := '"') (by decide), hstring, hend]
  simp [Except.map, String.ofList_toList]

theorem recognises_tag : Recognises readTag IsTag where
  complete := by
    intro w v rest s hw hv
    have hblank : readTag (w ++ (v ++ rest)) = readTag (v ++ rest) := by
      simp only [readTag, hw.skipBlank]
    rw [hblank]
    cases hv with
    | string h => exact readTag_spells h
    | object h =>
      rw [List.cons_append, List.append_assoc]
      exact readTag_object h
  sound := by
    intro cs rest s h
    unfold readTag at h
    split at h
    · cases h
    next c r hblank =>
    obtain ⟨w, hw, rfl⟩ := blanks_of_skipBlank hblank
    split at h
    · next hc =>
      subst hc
      obtain ⟨v, hv, heq⟩ := readString_map_eq_ok_iff.mp h
      exact ⟨w, v, hw, .string hv, by rw [heq]⟩
    split at h
    · next hc =>
      subst hc
      split at h
      · cases h
      next k r' hblank' =>
      obtain ⟨w', hw', rfl⟩ := blanks_of_skipBlank hblank'
      split at h
      · cases h
      split at h
      · next hk =>
        subst hk
        split at h
        · cases h
        next t r'' hstring =>
        obtain ⟨body, ps, hb, hm, rfl⟩ := readString_sound hstring
        cases hend : readTagEnd r'' with
        | error e => rw [hend] at h; cases h
        | ok left =>
          rw [hend] at h
          cases h
          obtain ⟨w₁, w₂, w₃, hw₁, hw₂, hw₃, rfl⟩ := readTagEnd_eq_ok_iff.mp hend
          have hname : Names ps (some (String.ofList t)) := by
            rwa [Names, String.toList_ofList]
          exact ⟨w, _, hw, .object (.some (.mk hw' hb hname hw₁ hw₂) (.done hw₃)), by simp⟩
      · cases h
    · cases h
  value := IsTag.isValue

/-! ## Entries one at a time -/

/-- What stands before an entry: nothing before the first of its bracket, else a comma. -/
inductive Separator : Bool → List Char → Prop where
  | first : Separator true []
  | later {w : List Char} (hw : Blanks w) : Separator false (w ++ [','])

/-- The entries that are still to come in a bracket; `first` says that none has been read. -/
def Ahead {α : Type} (P : α → List Char → Prop) (first : Bool) (as : List α) (es : List Char) :
    Prop :=
  match first with
  | true => Entries P as es
  | false => Later P as es

section Ahead

variable {α : Type} {P : α → List Char → Prop} {a : α} {as : List α} {sep t ts es w : List Char}
  {first : Bool}

theorem Ahead.of_blanks (first : Bool) (hw : Blanks w) : Ahead P first [] w := by
  cases first with
  | true => exact .none hw
  | false => exact .done hw

theorem Ahead.blanks (h : Ahead P first [] es) : Blanks es := by
  cases first with
  | true =>
    obtain ⟨hw⟩ := h
    exact hw
  | false =>
    obtain ⟨hw⟩ := h
    exact hw

theorem Ahead.of_entry (hsep : Separator first sep) (h : P a t) (hs : Later P as ts) :
    Ahead P first (a :: as) (sep ++ (t ++ ts)) := by
  cases hsep with
  | first =>
    rw [List.nil_append]
    exact .some h hs
  | @later w hw =>
    rw [List.append_assoc]
    show Later P _ (w ++ ',' :: (t ++ ts))
    exact .more hw h hs

theorem Ahead.entry (h : Ahead P first (a :: as) es) :
    ∃ sep t ts, Separator first sep ∧ P a t ∧ Later P as ts ∧ es = sep ++ (t ++ ts) := by
  cases first with
  | true =>
    obtain _ | ⟨h, hs⟩ := h
    exact ⟨[], _, _, .first, h, hs, rfl⟩
  | false =>
    obtain _ | ⟨hw, h, hs⟩ := h
    exact ⟨_, _, _, .later hw, h, hs, by simp⟩

theorem moreEntries_entry {c : Char} (hsep : Separator first sep) (hb : skipBlank cs = c :: rest)
    (hc : c ≠ ']') : moreEntries first (sep ++ cs) = .ok (true, c :: rest) := by
  cases hsep with
  | first => simp [moreEntries, hb, hc]
  | @later w hw =>
    have hcomma : skipBlank (w ++ ',' :: cs) = ',' :: cs := hw.skipBlank_cons (by decide) cs
    simp [moreEntries, hcomma, hb, hc]

theorem moreEntries_sound (h : moreEntries first cs = .ok (true, rest)) :
    ∃ sep w, Separator first sep ∧ Blanks w ∧ cs = sep ++ (w ++ rest) := by
  unfold moreEntries at h
  split at h
  · cases h
  next c r hblank =>
  obtain ⟨w, hw, rfl⟩ := blanks_of_skipBlank hblank
  split at h
  · cases h
  split at h
  · next hfirst =>
    cases h
    exact ⟨[], w, hfirst ▸ .first, hw, rfl⟩
  · next hfirst =>
    split at h
    · next hcomma =>
      split at h
      · cases h
      next d r' hblank' =>
      obtain ⟨w', hw', rfl⟩ := blanks_of_skipBlank hblank'
      split at h
      · cases h
      · cases h
        rw [Bool.not_eq_true] at hfirst
        exact ⟨w ++ [','], w', hfirst ▸ .later hw, hw', by simp [hcomma]⟩
    · cases h

theorem moreEntries_end (h : moreEntries first cs = .ok (false, rest)) :
    ∃ w left, Blanks w ∧ rest = ']' :: left ∧ cs = w ++ ']' :: left := by
  unfold moreEntries at h
  split at h
  · cases h
  next c r hblank =>
  obtain ⟨w, hw, rfl⟩ := blanks_of_skipBlank hblank
  split at h
  · next hc =>
    cases h
    exact ⟨w, r, hw, by rw [hc], by rw [hc]⟩
  · split at h
    · cases h
    · split at h
      · split at h
        · cases h
        · split at h <;> cases h
      · cases h

end Ahead

/-! ## Lists of tags -/

theorem readTagEntries_ahead {first : Bool} {vs : List (List Char)} {es : List Char}
    {tags : List String} (h : Ahead Item first vs es) (htags : List.Forall₂ IsTag vs tags) :
    readTagEntries first (es ++ ']' :: rest) = .ok (tags, rest) := by
  induction htags generalizing first es with
  | nil => exact readTagEntries_done (h.blanks.skipBlank_cons (by decide) _)
  | @cons v tag vs tags hv _ ih =>
    obtain ⟨sep, t, ts, hsep, ht, hs, rfl⟩ := h.entry
    obtain ⟨c, r, hblank, hc⟩ := ht.startsIn hv.isValue.1 (ts ++ ']' :: rest)
    have hread : readTag (c :: r) = .ok (tag, ts ++ ']' :: rest) := by
      obtain ⟨hw⟩ := ht
      rw [← hblank, List.append_assoc, hw.skipBlank, hv.isValue.1.skipBlank]
      exact recognises_tag.complete blanks_nil hv
    rw [List.append_assoc, List.append_assoc,
      readTagEntries_more (moreEntries_entry hsep hblank hc) hread]
    have hlater : Ahead Item false vs ts := hs
    rw [ih hlater]
    rfl

theorem readTagEntries_sound {first : Bool} {tags : List String}
    (h : readTagEntries first cs = .ok (tags, rest)) :
    ∃ vs es, Ahead Item first vs es ∧ List.Forall₂ IsTag vs tags ∧ cs = es ++ ']' :: rest := by
  fun_induction readTagEntries first cs generalizing tags with
  | case1 => cases h
  | case2 first cs r hmore =>
    obtain ⟨w, left, hw, rfl, rfl⟩ := moreEntries_end hmore
    rw [endList_closing] at h
    cases h
    exact ⟨[], w, .of_blanks first hw, .nil, rfl⟩
  | case3 => cases h
  | case4 => cases h
  | case5 first cs r hmore _ tag r' htag _ tags' left hlater ih =>
    cases h
    obtain ⟨sep, w, hsep, hw, rfl⟩ := moreEntries_sound hmore
    obtain ⟨w', v, hw', hv, rfl⟩ := recognises_tag.sound htag
    obtain ⟨vs, es, hes, htags, rfl⟩ := ih hlater
    have hitem : Item v ((w ++ w') ++ v) := .mk (hw.append hw')
    exact ⟨v :: vs, _, .of_entry hsep hitem hes, .cons hv htags, by simp⟩

theorem recognises_tags : Recognises readTags IsTags where
  complete := by
    rintro w _ rest tags hw ⟨h, htags⟩
    rw [readTags, List.cons_append, hw.skipBlank_cons (by decide), List.append_assoc]
    have hfirst : Ahead Item true _ _ := h
    exact readTagEntries_ahead hfirst htags
  sound := by
    intro cs rest tags h
    unfold readTags at h
    split at h
    · cases h
    next c r hblank =>
    obtain ⟨w, hw, rfl⟩ := blanks_of_skipBlank hblank
    split at h
    · next hc =>
      obtain ⟨vs, es, hes, htags, rfl⟩ := readTagEntries_sound h
      exact ⟨w, _, hw, ⟨hes, htags⟩, by simp [hc]⟩
    · cases h
  value := by
    rintro _ tags ⟨h, htags⟩
    have hvalues := (List.forall₂_and_left _ _).mp (htags.imp fun _ _ h => ⟨h.isValue.1, h⟩)
    exact ⟨.list h hvalues.1, not_isNumber (by decide) (by decide)⟩

end FractalShader.Json
