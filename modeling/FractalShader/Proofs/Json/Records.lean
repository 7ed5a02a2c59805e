import FractalShader.Proofs.Json.Tags

/-!
# Records and their texts

The text of a record is an object, whose members may come in any order, or a list, whose
values are the fields by position.  What a text makes of a record is said by its members
or its values alone, in `Schema.Accepts` and `Fills`; the reader is shown to agree with
that on every text.

* `readMembers_iff`, `readList_iff` — the reader along members and values that are known;
* `readMembers_sound`, `readList_sound` — what it reads are members and values;
* `readAll_object_iff`, `readAll_list_iff`, `readAll_iff` — whole texts.
-/

namespace FractalShader.Json

variable {σ : Type} {schema : Schema σ} {form : String → List Char → σ → σ → Prop}
  {s s' : σ} {seen : List String} {first : Bool} {cs rest left : List Char}

/-! ## What a text says -/

abbrev Schema.names (schema : Schema σ) : List String := schema.fields.map Field.name

/-- The fields are written as `form` says, by which the value of a field turns a record into
another. -/
def Reads (fields : List (Field σ)) (form : String → List Char → σ → σ → Prop) : Prop :=
  ∀ f ∈ fields, ∀ s, Recognises (f.read s) fun v s' => form f.name v s s'

/-- The record that members make of another, when the fields `seen` have been given before them.  A
field is given once; only an open record has other members, which do nothing. -/
inductive Schema.Accepts (schema : Schema σ) (form : String → List Char → σ → σ → Prop) :
    List String → σ → List (Option String × List Char) → σ → Prop where
  | done {seen : List String} {s : σ} : Accepts schema form seen s [] s
  | field {seen : List String} {s s' s'' : σ} {name : String} {v : List Char}
      {ms : List (Option String × List Char)} (hname : name ∈ schema.names) (hseen : name ∉ seen)
      (h : form name v s s') (hms : Accepts schema form (name :: seen) s' ms s'') :
      Accepts schema form seen s ((some name, v) :: ms) s''
  | other {seen : List String} {s s' : σ} {name : String} {v : List Char}
      {ms : List (Option String × List Char)} (hopen : schema.closed = false)
      (hname : name ∉ schema.names) (hms : Accepts schema form seen s ms s') :
      Accepts schema form seen s ((some name, v) :: ms) s'

/-- The record that values make of another, as the fields of these names. -/
inductive Fills (form : String → List Char → σ → σ → Prop) :
    List String → σ → List (List Char) → σ → Prop where
  | done {names : List String} {s : σ} : Fills form names s [] s
  | more {names : List String} {s s' s'' : σ} {name : String} {v : List Char}
      {vs : List (List Char)} (h : form name v s s') (hvs : Fills form names s' vs s'') :
      Fills form (name :: names) s (v :: vs) s''

section Accepts

variable {s'' s₁ : σ} {name : String} {v : List Char} {ms : List (Option String × List Char)}

theorem Schema.accepts_nil_iff : schema.Accepts form seen s [] s' ↔ s' = s := by
  constructor
  · rintro ⟨⟩
    rfl
  · rintro rfl
    exact .done

theorem Schema.not_accepts_none : ¬ schema.Accepts form seen s ((none, v) :: ms) s' := by
  rintro ⟨⟩

theorem Schema.accepts_field_iff (hname : name ∈ schema.names) :
    schema.Accepts form seen s ((some name, v) :: ms) s' ↔
      name ∉ seen ∧ ∃ s₁, form name v s s₁ ∧ schema.Accepts form (name :: seen) s₁ ms s' := by
  constructor
  · intro h
    cases h with
    | field _ hseen hform hms => exact ⟨hseen, _, hform, hms⟩
    | other _ hother => exact absurd hname hother
  · rintro ⟨hseen, s₁, hform, hms⟩
    exact .field hname hseen hform hms

theorem Schema.accepts_other_iff (hname : name ∉ schema.names) :
    schema.Accepts form seen s ((some name, v) :: ms) s' ↔
      schema.closed = false ∧ schema.Accepts form seen s ms s' := by
  constructor
  · intro h
    cases h with
    | field hfield => exact absurd hfield hname
    | other hopen _ hms => exact ⟨hopen, hms⟩
  · rintro ⟨hopen, hms⟩
    exact .other hopen hname hms

end Accepts

/-! ## Members -/

theorem readKey_iff {body : List Char} {ps : List Piece} {name : Option String} {key : String}
    (hb : Body body ps) (hname : Names ps name) :
    readKey ('"' :: (body ++ '"' :: rest)) = .ok (key, left) ↔ name = some key ∧ left = rest := by
  rw [readKey, if_pos rfl]
  constructor
  · intro h
    cases hread : readString (body ++ '"' :: rest) with
    | error e => rw [hread] at h; cases h
    | ok p =>
      rw [hread] at h
      cases h
      obtain ⟨hmeans, hrest⟩ := means_of_readString hb hread
      cases name with
      | none => exact absurd hmeans (hname p.1)
      | some t =>
        refine ⟨?_, hrest⟩
        rw [← Means.unique hb hname hmeans, String.ofList_toList]
  · rintro ⟨rfl, rfl⟩
    rw [readString_of_means hb hname]
    exact congrArg (fun t => Except.ok (t, left)) String.ofList_toList

theorem readKey_sound {key : String} (h : readKey cs = .ok (key, rest)) :
    ∃ body ps, Body body ps ∧ Means ps key.toList ∧ cs = '"' :: (body ++ '"' :: rest) := by
  unfold readKey at h
  split at h
  · cases h
  next c r =>
  split at h
  · next hc =>
    obtain ⟨v, ⟨body, ps, hb, hm, rfl⟩, heq⟩ := readString_map_eq_ok_iff.mp h
    exact ⟨body, ps, hb, hm, by simpa [hc] using heq⟩
  · cases h

theorem nextKey_quote {sep w : List Char} (hsep : Separator first sep) (hw : Blanks w)
    (cs : List Char) :
    ∃ c r, skipBlank (sep ++ (w ++ '"' :: cs)) = c :: r ∧ c ≠ '\x7d' ∧
      nextKey first c r = .ok ('"' :: cs) := by
  have hquote : skipBlank (w ++ '"' :: cs) = '"' :: cs := hw.skipBlank_cons (by decide) cs
  cases hsep with
  | first => exact ⟨'"', cs, hquote, by decide, rfl⟩
  | @later w' hw' =>
    refine ⟨',', w ++ '"' :: cs, ?_, by decide, ?_⟩
    · rw [List.append_assoc]
      exact hw'.skipBlank_cons (by decide) _
    · simp [nextKey, hquote]

theorem nextKey_sound {c : Char} {r start : List Char} (hb : skipBlank cs = c :: r)
    (h : nextKey first c r = .ok start) :
    ∃ sep w, Separator first sep ∧ Blanks w ∧ cs = sep ++ (w ++ start) := by
  obtain ⟨w, hw, rfl⟩ := blanks_of_skipBlank hb
  unfold nextKey at h
  split at h
  · next hfirst =>
    cases h
    exact ⟨[], w, hfirst ▸ .first, hw, rfl⟩
  · next hfirst =>
    split at h
    · next hcomma =>
      split at h
      · cases h
      next d r' hblank =>
      obtain ⟨w', hw', rfl⟩ := blanks_of_skipBlank hblank
      split at h
      · cases h
      · cases h
        rw [Bool.not_eq_true] at hfirst
        exact ⟨w ++ [','], w', hfirst ▸ .later hw, hw', by simp [hcomma]⟩
    · cases h

/-- What was read where an object goes on: a key that may stand there, a value, and the members
after them. -/
theorem readMembers_inv {c : Char} {r start : List Char} {s'' : σ} (hb : skipBlank cs = c :: r)
    (hc : c ≠ '\x7d') (hn : nextKey first c r = .ok start)
    (h : readMembers schema first seen s cs = .ok (s'', left)) :
    ∃ key r₁ r₂ s' r₃, readKey start = .ok (key, r₁) ∧ keyFault? schema seen key = none ∧
      readColon r₁ = .ok ((), r₂) ∧ readMember schema key s r₂ = .ok (s', r₃) ∧
      readMembers schema false (if key ∈ schema.names then key :: seen else seen) s' r₃
        = .ok (s'', left) := by
  rw [readMembers] at h
  split at h
  · cases h
  next hb' =>
  rw [hb] at hb'
  obtain ⟨rfl, rfl⟩ := List.cons.inj hb'
  rw [if_neg hc] at h
  split at h
  · cases h
  next hn' =>
  rw [hn] at hn'
  obtain rfl := Except.ok.inj hn'
  split at h
  · cases h
  next hkey =>
  simp only at h
  split at h
  · cases h
  next hfault =>
  split at h
  · cases h
  next hcolon =>
  split at h
  · cases h
  next hmember =>
  exact ⟨_, _, _, _, _, hkey, hfault, hcolon, hmember, h⟩

/-- A field is read by its form, and the value of another member is passed over. -/
theorem readMember_iff (h : Reads schema.fields form) {key : String} {w v : List Char}
    (hw : Blanks w) (hv : IsValue v) (hr : EndsNumber rest) :
    readMember schema key s (w ++ (v ++ rest)) = .ok (s', left) ↔
      (key ∈ schema.names ∧ form key v s s' ∨ key ∉ schema.names ∧ s' = s) ∧ left = rest := by
  unfold readMember
  split
  · next f hfind =>
    have hf := List.mem_of_find?_eq_some hfind
    obtain rfl : f.name = key := by simpa using List.find?_some hfind
    have hname : f.name ∈ schema.names := List.mem_map_of_mem hf
    simp only [(h f hf s).read_iff hw hv hr, hname, true_and, not_true, false_and, or_false]
  · next hfind =>
    have hname : key ∉ schema.names := by
      intro hmem
      obtain ⟨f, hf, hkey⟩ := List.mem_map.mp hmem
      exact absurd (List.find?_eq_none.mp hfind f hf) (by simpa using hkey)
    rw [hv.skipValue hw fun _ => hr]
    simp only [Except.map, Except.ok.injEq, Prod.mk.injEq, hname, not_false_eq_true, true_and,
      false_and, false_or]
    exact ⟨fun ⟨hs, hl⟩ => ⟨hs.symm, hl.symm⟩, fun ⟨hs, hl⟩ => ⟨hs.symm, hl.symm⟩⟩

theorem readMember_sound (h : Reads schema.fields form) {key : String}
    (hread : readMember schema key s cs = .ok (s', rest)) :
    ∃ w v, Blanks w ∧ IsValue v ∧ cs = w ++ (v ++ rest) := by
  unfold readMember at hread
  split at hread
  · next f hfind =>
    have hf := List.mem_of_find?_eq_some hfind
    obtain ⟨w, v, hw, hv, hcs⟩ := (h f hf s).sound hread
    exact ⟨w, v, hw, ((h f hf s).value hv).1, hcs⟩
  · cases hskip : skipValue cs with
    | error e => rw [hskip] at hread; cases hread
    | ok p =>
      rw [hskip] at hread
      cases hread
      exact skipValue_sound hskip

theorem keyFault?_eq_none_iff {key : String} : keyFault? schema seen key = none ↔
    key ∉ seen ∧ (schema.closed = true → key ∈ schema.names) := by
  unfold keyFault?
  split
  · next hseen => simp [hseen]
  · next hseen =>
    split
    · next h => simpa using fun _ => ⟨h.1, by simpa using h.2⟩
    · next h =>
      simp only [hseen, not_false_eq_true, true_and, true_iff]
      exact fun hclosed => Decidable.not_not.mp fun hname => h ⟨hclosed, hname⟩

theorem readMembers_member_iff (h : Reads schema.fields form) {s'' : σ} {name : Option String}
    {sep t v : List Char} (hsep : Separator first sep) (hm : Member (name, v) t) (hv : IsValue v)
    (hr : EndsNumber rest) :
    readMembers schema first seen s (sep ++ (t ++ rest)) = .ok (s'', left) ↔
      ∃ key s', name = some key ∧ keyFault? schema seen key = none ∧
        (key ∈ schema.names ∧ form key v s s' ∨ key ∉ schema.names ∧ s' = s) ∧
        readMembers schema false (if key ∈ schema.names then key :: seen else seen) s' rest
          = .ok (s'', left) := by
  obtain ⟨hw, hbody, hname, h₁, h₂⟩ := hm
  rename_i w body w₁ w₂ ps
  obtain ⟨c, r, hblank, hc, hnext⟩ :=
    nextKey_quote hsep hw (body ++ '"' :: (w₁ ++ ':' :: (w₂ ++ (v ++ rest))))
  have htext : sep ++ (w ++ '"' :: (body ++ '"' :: (w₁ ++ ':' :: (w₂ ++ v))) ++ rest)
      = sep ++ (w ++ '"' :: (body ++ '"' :: (w₁ ++ ':' :: (w₂ ++ (v ++ rest))))) := by simp
  have hcolon : readColon (w₁ ++ ':' :: (w₂ ++ (v ++ rest))) = .ok ((), w₂ ++ (v ++ rest)) :=
    readColon_eq_ok_iff.mpr ⟨w₁, h₁, rfl⟩
  rw [htext]
  constructor
  · intro hread
    obtain ⟨key, r₁, r₂, s', r₃, hkey, hfault, hcolon', hmember, hlater⟩ :=
      readMembers_inv hblank hc hnext hread
    obtain ⟨rfl, rfl⟩ := (readKey_iff hbody hname).mp hkey
    obtain ⟨-, rfl⟩ := Prod.mk.inj (Except.ok.inj (hcolon.symm.trans hcolon'))
    obtain ⟨hvalue, rfl⟩ := (readMember_iff h h₂ hv hr).mp hmember
    exact ⟨key, s', rfl, hfault, hvalue, hlater⟩
  · rintro ⟨key, s', rfl, hfault, hvalue, hlater⟩
    have hmember : readMember schema key s (w₂ ++ (v ++ rest)) = .ok (s', rest) :=
      (readMember_iff h h₂ hv hr).mpr ⟨hvalue, rfl⟩
    rw [readMembers_step hblank hc hnext ((readKey_iff hbody hname).mpr ⟨rfl, rfl⟩) hfault hcolon
      hmember]
    exact hlater

/-- Along members that are known, the reader makes of a record what they make of it. -/
theorem readMembers_iff (h : Reads schema.fields form) {ms : List (Option String × List Char)}
    {es : List Char} (hes : Ahead Member first ms es) (hv : ∀ m ∈ ms, IsValue m.2)
    (hseen : ∀ k ∈ seen, k ∈ schema.names) :
    readMembers schema first seen s (es ++ '\x7d' :: rest) = .ok (s', left) ↔
      schema.Accepts form seen s ms s' ∧ left = rest := by
  induction ms generalizing first seen s es with
  | nil =>
    rw [readMembers_closing (hes.blanks.skipBlank_cons (by decide) _)]
    constructor
    · intro hok
      cases hok
      exact ⟨.done, rfl⟩
    · rintro ⟨⟨⟩, rfl⟩
      rfl
  | cons m ms ih =>
    obtain ⟨sep, t, ts, hsep, hm, hs, rfl⟩ := hes.entry
    have hs : Ahead Member false ms ts := hs
    obtain ⟨hvm, hvs⟩ := List.forall_mem_cons.mp hv
    obtain ⟨name, v⟩ := m
    have hr : EndsNumber (ts ++ '\x7d' :: rest) := Later.endsNumber hs .object rest
    rw [List.append_assoc, List.append_assoc, readMembers_member_iff h hsep hm hvm hr]
    constructor
    · rintro ⟨key, s₁, rfl, hfault, hvalue, hread⟩
      obtain ⟨hkey, hopen⟩ := keyFault?_eq_none_iff.mp hfault
      rcases hvalue with ⟨hname, hform⟩ | ⟨hname, rfl⟩
      · rw [if_pos hname] at hread
        obtain ⟨hms, hleft⟩ := (ih hs hvs (List.forall_mem_cons.mpr ⟨hname, hseen⟩)).mp hread
        exact ⟨.field hname hkey hform hms, hleft⟩
      · rw [if_neg hname] at hread
        obtain ⟨hms, hleft⟩ := (ih hs hvs hseen).mp hread
        have hclosed : schema.closed = false := by
          rw [← Bool.not_eq_true]
          exact fun hc => hname (hopen hc)
        exact ⟨.other hclosed hname hms, hleft⟩
    · rintro ⟨haccepts, rfl⟩
      cases haccepts with
      | field hname hkey hform hms =>
        refine ⟨_, _, rfl, keyFault?_eq_none_iff.mpr ⟨hkey, fun _ => hname⟩,
          .inl ⟨hname, hform⟩, ?_⟩
        rw [if_pos hname]
        exact (ih hs hvs (List.forall_mem_cons.mpr ⟨hname, hseen⟩)).mpr ⟨hms, rfl⟩
      | other hopen hname hms =>
        refine ⟨_, _, rfl, keyFault?_eq_none_iff.mpr ⟨fun hk => hname (hseen _ hk), ?_⟩,
          .inr ⟨hname, rfl⟩, ?_⟩
        · rw [hopen]
          exact fun hc => absurd hc (by decide)
        · rw [if_neg hname]
          exact (ih hs hvs hseen).mpr ⟨hms, rfl⟩

/-- What the reader of members has read are members. -/
theorem readMembers_sound (h : Reads schema.fields form)
    (hread : readMembers schema first seen s cs = .ok (s', left)) :
    ∃ ms es, Ahead Member first ms es ∧ (∀ m ∈ ms, IsValue m.2) ∧ cs = es ++ '\x7d' :: left := by
  fun_induction readMembers schema first seen s cs with
  | case1 | case3 | case4 | case5 | case6 | case7 => cases hread
  | case2 first seen s cs rest hblank =>
    cases hread
    obtain ⟨w, hw, rfl⟩ := blanks_of_skipBlank hblank
    exact ⟨[], w, .of_blanks first hw, by simp, rfl⟩
  | case8 first seen s cs c r hblank _ _ start hnext _ key r₁ hkey _ _ _ r₂ hcolon _ s₁ r₃ hmember _
      later ih =>
    obtain ⟨sep, w, hsep, hw, rfl⟩ := nextKey_sound hblank hnext
    obtain ⟨body, ps, hbody, hmeans, rfl⟩ := readKey_sound hkey
    obtain ⟨w₁, hw₁, rfl⟩ := readColon_eq_ok_iff.mp hcolon
    obtain ⟨w₂, v, hw₂, hv, rfl⟩ := readMember_sound h hmember
    obtain ⟨ms, es, hes, hvs, rfl⟩ := ih (by simpa [later] using hread)
    have hname : Names ps (some key) := hmeans
    have hm : Member (some key, v) _ := .mk hw hbody hname hw₁ hw₂
    exact ⟨(some key, v) :: ms, _, .of_entry hsep hm hes, List.forall_mem_cons.mpr ⟨hv, hvs⟩,
      by simp⟩

/-! ## Positions -/

theorem endList_eq_ok_iff : endList cs = .ok left ↔ ∃ w, Blanks w ∧ cs = w ++ ']' :: left := by
  constructor
  · intro h
    unfold endList at h
    split at h
    · cases h
    next c r hblank =>
    obtain ⟨w, hw, rfl⟩ := blanks_of_skipBlank hblank
    split at h
    · next hc =>
      cases h
      exact ⟨w, hw, by rw [hc]⟩
    · split at h
      · split at h <;> cases h
      · cases h
  · rintro ⟨w, hw, rfl⟩
    rw [endList, hw.skipBlank_cons (by decide)]
    rfl

variable {fields : List (Field σ)}

/-- Read fields by position, and the bracket that ends the list. -/
def readList (first : Bool) (fields : List (Field σ)) (s : σ) : Reader σ := fun cs =>
  match readPositions first fields s cs with
  | .error e => .error e
  | .ok (s', rest) => (endList rest).map fun left => (s', left)

theorem map_left_eq_ok_iff : (endList cs).map (fun r => (s, r)) = .ok (s', left) ↔
    s' = s ∧ ∃ w, Blanks w ∧ cs = w ++ ']' :: left := by
  rw [← endList_eq_ok_iff]
  cases endList cs with
  | error e => simp [Except.map]
  | ok r =>
    simp only [Except.map, Except.ok.injEq, Prod.mk.injEq]
    exact ⟨fun ⟨hs, hr⟩ => ⟨hs.symm, hr⟩, fun ⟨hs, hr⟩ => ⟨hs.symm, hr⟩⟩

theorem readList_nil : readList first [] s cs = (endList cs).map fun r => (s, r) := rfl

theorem readList_end {f : Field σ} (h : moreEntries first cs = .ok (false, rest)) :
    readList first (f :: fields) s cs = (endList rest).map fun r => (s, r) := by
  rw [readList, readPositions, h]

theorem readList_next {f : Field σ} (h : moreEntries first cs = .ok (true, rest)) :
    readList first (f :: fields) s cs = match f.read s rest with
      | .error e => .error e
      | .ok (s', r) => readList false fields s' r := by
  rw [readList, readPositions, h]
  simp only
  cases f.read s rest with
  | error e => rfl
  | ok p => rfl

/-- A list that has another entry does not end there. -/
theorem skipBlank_entry {sep v t : List Char} (hsep : Separator first sep) (ht : Item v t)
    (hv : IsValue v) (rest : List Char) :
    ∃ c r, skipBlank (sep ++ (t ++ rest)) = c :: r ∧ c ≠ ']' := by
  cases hsep with
  | first => exact ht.startsIn hv rest
  | @later w hw =>
    refine ⟨',', t ++ rest, ?_, by decide⟩
    rw [List.append_assoc]
    exact hw.skipBlank_cons (by decide) _

/-- A bracket after blanks has one place. -/
theorem bracket_iff {w : List Char} (hw : Blanks w) :
    (∃ w', Blanks w' ∧ w ++ ']' :: rest = w' ++ ']' :: left) ↔ left = rest := by
  constructor
  · rintro ⟨w', hw', h⟩
    have hskip : skipBlank (w ++ ']' :: rest) = ']' :: rest := hw.skipBlank_cons (by decide) rest
    rw [h, hw'.skipBlank_cons (by decide)] at hskip
    exact (List.cons.inj hskip).2
  · rintro rfl
    exact ⟨w, hw, rfl⟩

/-- Along values that are known, the reader makes of a record what they make of it. -/
theorem readList_iff (h : Reads fields form) {vs : List (List Char)} {es : List Char}
    (hes : Ahead Item first vs es) (hv : ∀ v ∈ vs, IsValue v) :
    readList first fields s (es ++ ']' :: rest) = .ok (s', left) ↔
      Fills form (fields.map Field.name) s vs s' ∧ left = rest := by
  induction fields generalizing first s vs es with
  | nil =>
    rw [readList_nil, map_left_eq_ok_iff]
    cases vs with
    | nil =>
      rw [bracket_iff hes.blanks]
      constructor
      · rintro ⟨rfl, hleft⟩
        exact ⟨.done, hleft⟩
      · rintro ⟨⟨⟩, hleft⟩
        exact ⟨rfl, hleft⟩
    | cons v vs =>
      obtain ⟨sep, t, ts, hsep, ht, -, rfl⟩ := hes.entry
      obtain ⟨c, r, hblank, hc⟩ :=
        skipBlank_entry hsep ht (hv v List.mem_cons_self) (ts ++ ']' :: rest)
      constructor
      · rintro ⟨-, w, hw, h⟩
        rw [← List.append_assoc t, ← List.append_assoc sep, h,
          hw.skipBlank_cons (by decide)] at hblank
        exact absurd (List.cons.inj hblank).1.symm hc
      · rintro ⟨⟨⟩, -⟩
  | cons f fields ih =>
    obtain ⟨hf, hfields⟩ := List.forall_mem_cons.mp h
    cases vs with
    | nil =>
      have hmore : moreEntries first (es ++ ']' :: rest) = .ok (false, ']' :: rest) :=
        moreEntries_closing (hes.blanks.skipBlank_cons (by decide) _)
      have hbracket : (∃ w, Blanks w ∧ ']' :: rest = w ++ ']' :: left) ↔ left = rest :=
        bracket_iff blanks_nil
      rw [readList_end hmore, map_left_eq_ok_iff, hbracket]
      constructor
      · rintro ⟨rfl, hleft⟩
        exact ⟨.done, hleft⟩
      · rintro ⟨⟨⟩, hleft⟩
        exact ⟨rfl, hleft⟩
    | cons v vs =>
      obtain ⟨sep, t, ts, hsep, ht, hs, rfl⟩ := hes.entry
      obtain ⟨hvv, hvs⟩ := List.forall_mem_cons.mp hv
      have hs : Ahead Item false vs ts := hs
      have hr : EndsNumber (ts ++ ']' :: rest) := Later.endsNumber hs .list rest
      obtain ⟨c, r, hblank, hc⟩ := ht.startsIn hvv (ts ++ ']' :: rest)
      rw [List.append_assoc, List.append_assoc, readList_next (moreEntries_entry hsep hblank hc)]
      have hread : ∀ s₁ r₁, f.read s (c :: r) = .ok (s₁, r₁) ↔
          form f.name v s s₁ ∧ r₁ = ts ++ ']' :: rest := by
        obtain ⟨hw⟩ := ht
        intro s₁ r₁
        rw [← hblank, List.append_assoc, hw.skipBlank, hvv.skipBlank]
        exact (hf s).read_iff blanks_nil hvv hr
      constructor
      · intro hlist
        split at hlist
        · cases hlist
        next s₁ r₁ hfield =>
        obtain ⟨hform, rfl⟩ := (hread s₁ r₁).mp hfield
        obtain ⟨hfills, hleft⟩ := (ih hfields hs hvs).mp hlist
        exact ⟨.more hform hfills, hleft⟩
      · rintro ⟨hfills, rfl⟩
        obtain _ | ⟨hform, hfills⟩ := hfills
        rw [(hread _ _).mpr ⟨hform, rfl⟩]
        exact (ih hfields hs hvs).mpr ⟨hfills, rfl⟩

theorem readList_sound (h : Reads fields form)
    (hread : readList first fields s cs = .ok (s', left)) :
    ∃ vs es, Ahead Item first vs es ∧ (∀ v ∈ vs, IsValue v) ∧ cs = es ++ ']' :: left := by
  induction fields generalizing first s cs with
  | nil =>
    obtain ⟨-, w, hw, rfl⟩ := map_left_eq_ok_iff.mp hread
    exact ⟨[], w, .of_blanks first hw, by simp, rfl⟩
  | cons f fields ih =>
    obtain ⟨hf, hfields⟩ := List.forall_mem_cons.mp h
    cases hmore : moreEntries first cs with
    | error e =>
      rw [readList, readPositions, hmore] at hread
      cases hread
    | ok p =>
      obtain ⟨more, r⟩ := p
      cases more with
      | false =>
        obtain ⟨w, left', hw, rfl, rfl⟩ := moreEntries_end hmore
        rw [readList_end hmore, endList_closing] at hread
        cases hread
        exact ⟨[], w, .of_blanks first hw, by simp, rfl⟩
      | true =>
        obtain ⟨sep, w, hsep, hw, rfl⟩ := moreEntries_sound hmore
        rw [readList_next hmore] at hread
        split at hread
        · cases hread
        next s₁ r₁ hfield =>
        obtain ⟨w', v, hw', hform, rfl⟩ := (hf s).sound hfield
        obtain ⟨vs, es, hes, hvs, rfl⟩ := ih hfields hread
        have hitem : Item v ((w ++ w') ++ v) := .mk (hw.append hw')
        exact ⟨v :: vs, _, .of_entry hsep hitem hes,
          List.forall_mem_cons.mpr ⟨((hf s).value hform).1, hvs⟩, by simp⟩

/-! ## Whole texts -/

variable {text : List Char}

theorem readRecord_list {w : List Char} (hw : Blanks w) (cs : List Char) :
    readRecord schema s (w ++ '[' :: cs) = readList true schema.fields s cs := by
  rw [readRecord, hw.skipBlank_cons (by decide)]
  rfl

theorem readRecord_object {w : List Char} (hw : Blanks w) (cs : List Char) :
    readRecord schema s (w ++ '\x7b' :: cs) = readMembers schema true [] s cs := by
  rw [readRecord, hw.skipBlank_cons (by decide)]
  rfl

theorem ObjectText.skipBlank {ms : List (Option String × List Char)} (h : ObjectText ms text) :
    ∃ cs, Json.skipBlank text = '\x7b' :: cs := by
  obtain ⟨-, w, es, w', hw, -, -, rfl⟩ := h
  exact ⟨_, hw.skipBlank_cons (by decide) _⟩

theorem readAll_object_iff (h : Reads schema.fields form)
    {ms : List (Option String × List Char)} (htext : ObjectText ms text) :
    readAll (readRecord schema s) text = .ok s' ↔ schema.Accepts form [] s ms s' := by
  obtain ⟨hv, w, es, w', hw, hes, hw', rfl⟩ := htext
  have hes : Ahead Member true ms es := hes
  rw [readAll_eq_ok_iff]
  simp only [readRecord_object hw, readMembers_iff h hes hv fun _ hk => absurd hk List.not_mem_nil]
  constructor
  · rintro ⟨_, ⟨haccepts, -⟩, -⟩
    exact haccepts
  · intro haccepts
    exact ⟨w', ⟨haccepts, rfl⟩, hw'.skipBlank_eq_nil⟩

theorem readAll_list_iff (h : Reads schema.fields form) {vs : List (List Char)}
    (htext : ListText vs text) :
    readAll (readRecord schema s) text = .ok s' ↔ Fills form schema.names s vs s' := by
  obtain ⟨hv, w, es, w', hw, hes, hw', rfl⟩ := htext
  have hes : Ahead Item true vs es := hes
  rw [readAll_eq_ok_iff]
  simp only [readRecord_list hw, readList_iff h hes hv]
  constructor
  · rintro ⟨_, ⟨hfills, -⟩, -⟩
    exact hfills
  · intro hfills
    exact ⟨w', ⟨hfills, rfl⟩, hw'.skipBlank_eq_nil⟩

/-- A text is read as a record exactly when it is an object or a list that makes the record. -/
theorem readAll_iff (h : Reads schema.fields form) :
    readAll (readRecord schema s) text = .ok s' ↔
      (∃ ms, ObjectText ms text ∧ schema.Accepts form [] s ms s') ∨
      (∃ vs, ListText vs text ∧ Fills form schema.names s vs s') := by
  constructor
  · intro hread
    obtain ⟨rest, hrecord, hrest⟩ := readAll_eq_ok_iff.mp hread
    obtain ⟨w', hw', rfl⟩ : ∃ w', Blanks w' ∧ rest = w' ++ [] := blanks_of_skipBlank hrest
    have hshape : (∃ ms, ObjectText ms text) ∨ ∃ vs, ListText vs text := by
      unfold readRecord at hrecord
      split at hrecord
      · cases hrecord
      next c r hblank =>
      obtain ⟨w, hw, rfl⟩ := blanks_of_skipBlank hblank
      split at hrecord
      · next hc =>
        obtain ⟨vs, es, hes, hvs, rfl⟩ := readList_sound h hrecord
        exact .inr ⟨vs, hvs, w, es, w', hw, hes, hw', by simp [hc]⟩
      split at hrecord
      · next hc =>
        obtain ⟨ms, es, hes, hvs, rfl⟩ := readMembers_sound h hrecord
        exact .inl ⟨ms, hvs, w, es, w', hw, hes, hw', by simp [hc]⟩
      · cases hrecord
    rcases hshape with ⟨ms, hms⟩ | ⟨vs, hvs⟩
    · exact .inl ⟨ms, hms, (readAll_object_iff h hms).mp hread⟩
    · exact .inr ⟨vs, hvs, (readAll_list_iff h hvs).mp hread⟩
  · rintro (⟨ms, hms, haccepts⟩ | ⟨vs, hvs, hfills⟩)
    · exact (readAll_object_iff h hms).mpr haccepts
    · exact (readAll_list_iff h hvs).mpr hfills

end FractalShader.Json
