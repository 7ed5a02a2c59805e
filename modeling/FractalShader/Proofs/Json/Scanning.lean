import FractalShader.Proofs.Json.Grammar
import FractalShader.Proofs.Json.Reading

/-!
# The parts of a value, scanned

The scanners of blanks, strings and numbers against the grammar, in both directions: what
the grammar forms they pass over, whatever follows it, and what they pass over the grammar
forms.  A number has to be followed by something that does not go on with it.

* `readString_of_means`, `readString_sound` — a string is read exactly when it spells a
  text, which is then what is read;
* `skipString_body`, `skipString_sound` — any well-formed string is passed over;
* `skipNumber_append`, `skipNumber_sound` — numbers.
-/

namespace FractalShader.Json

/-! ## Blanks -/

theorem blanks_nil : Blanks [] := fun _ hc => absurd hc List.not_mem_nil

theorem blanks_space : Blanks [' '] := by
  intro c hc
  rw [List.mem_singleton.mp hc]
  rfl

theorem Blanks.append {w w' : List Char} (hw : Blanks w) (hw' : Blanks w') : Blanks (w ++ w') := by
  intro c hc
  rcases List.mem_append.mp hc with h | h
  · exact hw c h
  · exact hw' c h

theorem Blanks.skipBlank {w : List Char} (hw : Blanks w) (cs : List Char) :
    skipBlank (w ++ cs) = skipBlank cs :=
  List.dropWhile_append_of_pos hw

theorem Blanks.skipBlank_cons {w : List Char} {c : Char} (hw : Blanks w) (hc : isBlank c = false)
    (cs : List Char) : Json.skipBlank (w ++ c :: cs) = c :: cs :=
  (hw.skipBlank _).trans (Json.skipBlank_cons hc cs)

theorem Blanks.skipBlank_eq_nil {w : List Char} (hw : Blanks w) : Json.skipBlank w = [] := by
  have h := hw.skipBlank []
  rwa [List.append_nil] at h

/-- What is passed over as blank is blank. -/
theorem blanks_skipBlank (cs : List Char) : ∃ w, Blanks w ∧ cs = w ++ skipBlank cs := by
  refine ⟨cs.takeWhile isBlank, fun c hc => ?_, List.takeWhile_append_dropWhile.symm⟩
  exact List.all_eq_true.mp (List.all_takeWhile (p := isBlank)) c hc

theorem blanks_of_skipBlank {cs rest : List Char} (h : skipBlank cs = rest) :
    ∃ w, Blanks w ∧ cs = w ++ rest :=
  h ▸ blanks_skipBlank cs

theorem skipBlank_skipBlank (cs : List Char) : skipBlank (skipBlank cs) = skipBlank cs := by
  obtain ⟨w, hw, h⟩ := blanks_skipBlank cs
  calc skipBlank (skipBlank cs) = skipBlank (w ++ skipBlank cs) := (hw.skipBlank _).symm
    _ = skipBlank cs := by rw [← h]

/-! ## Escapes -/

theorem shortEscape_eq_some_iff {e c : Char} : shortEscape e = some c ↔ ShortEscape e c := by
  constructor
  · intro h
    unfold shortEscape at h
    repeat' split at h
    -- one case for each letter, and one for all others
    all_goals cases h
    all_goals subst_vars
    all_goals constructor
  · intro h
    cases h <;> decide

instance (c : Char) (n : Nat) : Decidable (HexDigit c n) := inferInstanceAs (Decidable (_ ∧ _))

theorem toNat_lt_of_hexValue {c : Char} {n : Nat} (h : hexValue c = some n) : c.toNat < 128 := by
  have hbound : ∀ d : Char, c ≤ d → d.toNat < 128 → c.toNat < 128 := by
    intro d hd hascii
    exact Nat.lt_of_le_of_lt hd hascii
  unfold hexValue at h
  split at h
  · next hc => exact hbound '9' hc.2 (by decide)
  · split at h
    · next hc => exact hbound 'f' hc.2 (by decide)
    · split at h
      · next hc => exact hbound 'F' hc.2 (by decide)
      · cases h

theorem hexValue_eq_some_iff {c : Char} {n : Nat} : hexValue c = some n ↔ HexDigit c n := by
  constructor
  · intro h
    have hall : ∀ k, k < 128 →
        (hexValue (Char.ofNat k)).all fun n => HexDigit (Char.ofNat k) n := by decide
    have hc := hall c.toNat (toNat_lt_of_hexValue h)
    rw [Char.ofNat_toNat, h] at hc
    exact of_decide_eq_true hc
  · rintro ⟨hn, hc⟩
    have hall : ∀ n, n < 16 → hexValue (Nat.digitChar n) = some n ∧
        hexValue (Nat.digitChar n).toUpper = some n := by decide
    rcases hc with rfl | rfl
    · exact (hall n hn).1
    · exact (hall n hn).2

theorem hexValue4_eq_some_iff {a b c d : Char} {n : Nat} :
    hexValue4 a b c d = some n ↔ HexUnit a b c d n := by
  constructor
  · intro h
    simp only [hexValue4, Option.bind_eq_bind, Option.bind_eq_some_iff, Option.some.injEq] at h
    obtain ⟨i, ha, j, hb, k, hc, l, hd, rfl⟩ := h
    exact .mk (hexValue_eq_some_iff.mp ha) (hexValue_eq_some_iff.mp hb)
      (hexValue_eq_some_iff.mp hc) (hexValue_eq_some_iff.mp hd)
  · rintro ⟨ha, hb, hc, hd⟩
    simp only [hexValue4, hexValue_eq_some_iff.mpr ha, hexValue_eq_some_iff.mpr hb,
      hexValue_eq_some_iff.mpr hc, hexValue_eq_some_iff.mpr hd]
    rfl

theorem readHex4_unit {a b c d : Char} {n : Nat} (h : HexUnit a b c d n) (rest : List Char) :
    readHex4 (a :: b :: c :: d :: rest) = .ok (n, rest) := by
  simp only [readHex4, hexValue4_eq_some_iff.mpr h]

theorem readHex4_eq_ok {cs rest : List Char} {n : Nat} (h : readHex4 cs = .ok (n, rest)) :
    ∃ a b c d, HexUnit a b c d n ∧ cs = a :: b :: c :: d :: rest := by
  unfold readHex4 at h
  split at h
  · next a b c d _ =>
    split at h
    · next hn =>
      cases h
      exact ⟨a, b, c, d, hexValue4_eq_some_iff.mp hn, rfl⟩
    · cases h
  · cases h

theorem HexUnit.lt {a b c d : Char} {n : Nat} (h : HexUnit a b c d n) : n < 0x10000 := by
  obtain ⟨⟨hi, -⟩, ⟨hj, -⟩, ⟨hk, -⟩, ⟨hl, -⟩⟩ := h
  omega

/-! ## Strings -/

/-- After a backslash, `spelled` spells the character `c`. -/
def Escapes (spelled : List Char) (c : Char) : Prop :=
  ∃ ps, (∀ body qs, Body body qs → Body ('\\' :: (spelled ++ body)) (ps ++ qs)) ∧
    ∀ qs s, Means qs s → Means (ps ++ qs) (c :: s)

theorem escapes_short {e c : Char} (h : ShortEscape e c) : Escapes [e] c :=
  ⟨[.char c], fun _ _ hb => .short h hb, fun _ _ hm => .char hm⟩

theorem escapes_single {a b c d e : Char} (h : HexUnit a b c d e.toNat) :
    Escapes ['u', a, b, c, d] e :=
  ⟨[.code e.toNat], fun _ _ hb => .code h hb, fun _ _ hm => .single hm⟩

theorem escapes_pair {a b c d a' b' c' d' e : Char} {high low : Nat} (h : HexUnit a b c d high)
    (h' : HexUnit a' b' c' d' low) (hhigh : 0xD800 ≤ high ∧ high < 0xDC00)
    (hlow : 0xDC00 ≤ low ∧ low < 0xE000)
    (he : e.toNat = 0x10000 + (high - 0xD800) * 0x400 + (low - 0xDC00)) :
    Escapes ['u', a, b, c, d, '\\', 'u', a', b', c', d'] e :=
  ⟨[.code high, .code low], fun _ _ hb => .code h (.code h' hb),
    fun _ _ hm => .pair hhigh hlow he hm⟩

theorem isHighSurrogate_iff {n : Nat} : isHighSurrogate n = true ↔ 0xD800 ≤ n ∧ n < 0xDC00 := by
  simp [isHighSurrogate]
  omega

theorem isLowSurrogate_iff {n : Nat} : isLowSurrogate n = true ↔ 0xDC00 ≤ n ∧ n < 0xE000 := by
  simp [isLowSurrogate]
  omega

/-- The number of a character is no half of a pair. -/
theorem toNat_no_surrogate (c : Char) :
    isHighSurrogate c.toNat = false ∧ isLowSurrogate c.toNat = false := by
  have hc : c.toNat < 0xD800 ∨ 0xDFFF < c.toNat ∧ c.toNat < 0x110000 := c.valid
  rw [Bool.eq_false_iff, Bool.eq_false_iff, ne_eq, ne_eq, isHighSurrogate_iff, isLowSurrogate_iff]
  omega

/-- The character of a number that is no half of a pair. -/
theorem toNat_ofNat_of_no_surrogate {n : Nat} (hn : n < 0x110000)
    (hhigh : isHighSurrogate n = false) (hlow : isLowSurrogate n = false) :
    (Char.ofNat n).toNat = n := by
  rw [Bool.eq_false_iff, ne_eq, isHighSurrogate_iff] at hhigh
  rw [Bool.eq_false_iff, ne_eq, isLowSurrogate_iff] at hlow
  have hvalid : n.isValidChar := by
    show n < 0xD800 ∨ 0xDFFF < n ∧ n < 0x110000
    omega
  rw [Char.ofNat, dif_pos hvalid]
  rfl

theorem readEscape_short {e c : Char} (h : ShortEscape e c) (rest : List Char) :
    readEscape (e :: rest) = .ok (c, rest) := by
  have he : e ≠ 'u' := by rintro rfl; cases h
  simp only [readEscape, if_neg he, shortEscape_eq_some_iff.mpr h]

theorem readEscape_single {a b c d e : Char} (h : HexUnit a b c d e.toNat) (rest : List Char) :
    readEscape ('u' :: a :: b :: c :: d :: rest) = .ok (e, rest) := by
  obtain ⟨hhigh, hlow⟩ := toNat_no_surrogate e
  simp [readEscape, readHex4_unit h, hhigh, hlow]

theorem readEscape_pair {a b c d a' b' c' d' e : Char} {high low : Nat} (h : HexUnit a b c d high)
    (h' : HexUnit a' b' c' d' low) (hhigh : 0xD800 ≤ high ∧ high < 0xDC00)
    (hlow : 0xDC00 ≤ low ∧ low < 0xE000)
    (he : e.toNat = 0x10000 + (high - 0xD800) * 0x400 + (low - 0xDC00)) (rest : List Char) :
    readEscape ('u' :: a :: b :: c :: d :: '\\' :: 'u' :: a' :: b' :: c' :: d' :: rest)
      = .ok (e, rest) := by
  have hnotLow : isLowSurrogate high = false := by
    rw [Bool.eq_false_iff, ne_eq, isLowSurrogate_iff]
    omega
  simp [readEscape, readHex4_unit h, hnotLow, isHighSurrogate_iff.mpr hhigh, readLowSurrogate,
    readHex4_unit h', isLowSurrogate_iff.mpr hlow, ← he]

theorem readLowSurrogate_sound {high : Nat} {cs rest : List Char} {c : Char}
    (h : readLowSurrogate high cs = .ok (c, rest)) :
    ∃ a' b' c' d' low, HexUnit a' b' c' d' low ∧ (0xDC00 ≤ low ∧ low < 0xE000) ∧
      c = Char.ofNat (0x10000 + (high - 0xD800) * 0x400 + (low - 0xDC00)) ∧
      cs = '\\' :: 'u' :: a' :: b' :: c' :: d' :: rest := by
  unfold readLowSurrogate at h
  split at h
  · cases h
  · split at h
    · cases h
    · next hback =>
      split at h
      · cases h
      · split at h
        · cases h
        · next hu =>
          split at h
          · cases h
          · next low rest' hx =>
            split at h
            · next hlow =>
              simp only [Except.ok.injEq, Prod.mk.injEq] at h
              obtain ⟨rfl, rfl⟩ := h
              obtain ⟨a, b, c, d, hunit, rfl⟩ := readHex4_eq_ok hx
              rw [Decidable.not_not.mp hback, Decidable.not_not.mp hu]
              exact ⟨a, b, c, d, low, hunit, isLowSurrogate_iff.mp hlow, rfl, rfl⟩
            · cases h

/-- What is read after a backslash spells the character that is read. -/
theorem readEscape_sound {cs rest : List Char} {c : Char} (h : readEscape cs = .ok (c, rest)) :
    ∃ spelled, Escapes spelled c ∧ cs = spelled ++ rest := by
  unfold readEscape at h
  split at h
  · cases h
  · next e cs =>
    split at h
    · next he =>
      subst he
      split at h
      · cases h
      · next n rest' hx =>
        obtain ⟨a, b, c₁, d, hunit, rfl⟩ := readHex4_eq_ok hx
        split at h
        · cases h
        · next hlow =>
          split at h
          · next hhigh =>
            obtain ⟨a', b', c', d', low, hunit', hlow', hc, rfl⟩ := readLowSurrogate_sound h
            have hrange := isHighSurrogate_iff.mp hhigh
            refine ⟨_, escapes_pair hunit hunit' hrange hlow' ?_, rfl⟩
            rw [hc]
            have hsum : 0xFFFF < 0x10000 + (n - 0xD800) * 0x400 + (low - 0xDC00) ∧
                0x10000 + (n - 0xD800) * 0x400 + (low - 0xDC00) < 0x110000 := by omega
            exact toNat_ofNat_of_no_surrogate hsum.2
              (by rw [Bool.eq_false_iff, ne_eq, isHighSurrogate_iff]; omega)
              (by rw [Bool.eq_false_iff, ne_eq, isLowSurrogate_iff]; omega)
          · next hhigh =>
            cases h
            have hn := toNat_ofNat_of_no_surrogate (Nat.lt_trans hunit.lt (by decide))
              (Bool.eq_false_iff.mpr hhigh) (Bool.eq_false_iff.mpr hlow)
            refine ⟨_, escapes_single (e := Char.ofNat n) ?_, rfl⟩
            rwa [hn]
    · split at h
      · next hshort =>
        cases h
        exact ⟨[e], escapes_short (shortEscape_eq_some_iff.mp hshort), rfl⟩
      · cases h

theorem readString_plain {c : Char} (hquote : c ≠ '"') (hback : c ≠ '\\') (hcontrol : ' ' ≤ c)
    (rest : List Char) : readString (c :: rest) = (readString rest).map (headed c) := by
  have hlt : ¬ c < ' ' := Char.not_lt.mpr hcontrol
  rw [readString_cons, if_neg hquote, if_neg hlt, if_neg hback]

theorem readString_escaped {c : Char} {cs rest : List Char} (h : readEscape cs = .ok (c, rest)) :
    readString ('\\' :: cs) = (readString rest).map (headed c) := by
  rw [readString_cons, if_neg (by decide), if_neg (by decide), if_pos rfl, h]

/-- A string that spells a text is read as that text, whatever follows it. -/
theorem readString_of_means {body s : List Char} {ps : List Piece} (hb : Body body ps)
    (hm : Means ps s) (rest : List Char) :
    readString (body ++ '"' :: rest) = .ok (s, rest) := by
  induction hm generalizing body with
  | nil =>
    cases hb
    simp [readString_cons]
  | char _ ih =>
    cases hb with
    | plain hquote hback hcontrol hb =>
      rw [List.cons_append, readString_plain hquote hback hcontrol, ih hb]
      rfl
    | short he hb =>
      rw [List.cons_append, List.cons_append, readString_escaped (readEscape_short he _), ih hb]
      rfl
  | single _ ih =>
    cases hb with
    | code hn hb =>
      simp only [List.cons_append]
      rw [readString_escaped (readEscape_single hn _), ih hb]
      rfl
  | pair hhigh hlow hc _ ih =>
    cases hb with
    | code hn hb =>
      cases hb with
      | code hn' hb =>
        simp only [List.cons_append]
        rw [readString_escaped (readEscape_pair hn hn' hhigh hlow hc _), ih hb]
        rfl

/-- What is read as a text is a string that spells it. -/
theorem readString_sound {cs rest s : List Char} (h : readString cs = .ok (s, rest)) :
    ∃ body ps, Body body ps ∧ Means ps s ∧ cs = body ++ '"' :: rest := by
  induction hn : cs.length using Nat.strongRecOn generalizing cs s with
  | _ n ih =>
    subst hn
    cases cs with
    | nil => simp [readString] at h
    | cons c cs =>
      by_cases hquote : c = '"'
      · subst hquote
        simp only [readString_cons, if_true, Except.ok.injEq, Prod.mk.injEq] at h
        obtain ⟨rfl, rfl⟩ := h
        exact ⟨[], [], .nil, .nil, rfl⟩
      · by_cases hcontrol : c < ' '
        · simp [readString_cons, hquote, hcontrol] at h
        · by_cases hback : c = '\\'
          · subst hback
            cases he : readEscape cs with
            | error e => simp [readString_cons, he] at h
            | ok p =>
              obtain ⟨d, cs'⟩ := p
              rw [readString_escaped he] at h
              obtain ⟨t, hs, rfl⟩ := map_headed_eq_ok h
              have hlt := readEscape_shorter he
              obtain ⟨body, ps, hbody, hmeans, rfl⟩ :=
                ih cs'.length (by simp only [List.length_cons]; omega) hs rfl
              obtain ⟨spelled, ⟨qs, hspelled, hd⟩, rfl⟩ := readEscape_sound he
              exact ⟨_, _, hspelled body ps hbody, hd ps t hmeans, by simp⟩
          · rw [readString_plain hquote hback (Char.not_lt.mp hcontrol)] at h
            obtain ⟨t, hs, rfl⟩ := map_headed_eq_ok h
            obtain ⟨body, ps, hbody, hmeans, rfl⟩ :=
              ih cs.length (by simp only [List.length_cons]; omega) hs rfl
            exact ⟨c :: body, _, .plain hquote hback (Char.not_lt.mp hcontrol) hbody,
              .char hmeans, rfl⟩

/-! ## Strings that nobody reads -/

theorem skipString_quote (rest : List Char) : skipString ('"' :: rest) = .ok rest := by
  rw [skipString.eq_def]
  rfl

theorem skipString_plain {c : Char} (hquote : c ≠ '"') (hback : c ≠ '\\') (hcontrol : ' ' ≤ c)
    (rest : List Char) : skipString (c :: rest) = skipString rest := by
  have hlt : ¬ c < ' ' := Char.not_lt.mpr hcontrol
  rw [skipString.eq_def]
  simp only [if_neg hquote, if_neg hlt, if_neg hback]

theorem skipString_short {e c : Char} (h : ShortEscape e c) (rest : List Char) :
    skipString ('\\' :: e :: rest) = skipString rest := by
  have he : e ≠ 'u' := by rintro rfl; cases h
  have hsome : (shortEscape e).isSome = true := by rw [shortEscape_eq_some_iff.mpr h]; rfl
  rw [skipString.eq_def]
  simp only [if_neg he, hsome]
  rfl

theorem skipString_code {a b c d : Char} {n : Nat} (h : HexUnit a b c d n) (rest : List Char) :
    skipString ('\\' :: 'u' :: a :: b :: c :: d :: rest) = skipString rest := by
  have hread := readHex4_unit h rest
  have hquote : ¬ '\\' = '"' := by decide
  have hcontrol : ¬ '\\' < ' ' := by decide
  rw [skipString.eq_def]
  simp only [if_neg hquote, if_neg hcontrol, if_true]
  split
  · next hx =>
    rw [hread] at hx
    cases hx
  · next hx =>
    rw [hread] at hx
    obtain ⟨-, rfl⟩ := Prod.mk.inj (Except.ok.inj hx)
    rfl

/-- Any string is passed over, whether it spells a text or not. -/
theorem skipString_body {body : List Char} {ps : List Piece} (hb : Body body ps)
    (rest : List Char) : skipString (body ++ '"' :: rest) = .ok rest := by
  induction hb with
  | nil => exact skipString_quote rest
  | plain hquote hback hcontrol _ ih =>
    rw [List.cons_append, skipString_plain hquote hback hcontrol, ih]
  | short he _ ih => rw [List.cons_append, List.cons_append, skipString_short he, ih]
  | code hn _ ih =>
    simp only [List.cons_append]
    rw [skipString_code hn, ih]

/-- What is passed over is a string. -/
theorem skipString_sound {cs rest : List Char} (h : skipString cs = .ok rest) :
    ∃ body ps, Body body ps ∧ cs = body ++ '"' :: rest := by
  fun_induction skipString cs with
  | case1 | case3 | case4 | case5 | case8 => cases h
  | case2 =>
    cases h
    exact ⟨[], [], .nil, rfl⟩
  | case6 =>
    rename_i hx _ _ _ ih
    obtain ⟨body, ps, hbody, rfl⟩ := ih h
    obtain ⟨a, b, c, d, hunit, rfl⟩ := readHex4_eq_ok hx
    exact ⟨_, _, .code hunit hbody, rfl⟩
  | case7 =>
    rename_i hshort _ _ ih
    obtain ⟨body, ps, hbody, rfl⟩ := ih h
    obtain ⟨c, hc⟩ := Option.isSome_iff_exists.mp hshort
    exact ⟨_, _, .short (shortEscape_eq_some_iff.mp hc) hbody, rfl⟩
  | case9 =>
    rename_i hquote hcontrol hback ih
    obtain ⟨body, ps, hbody, rfl⟩ := ih h
    exact ⟨_, _, .plain hquote hback (Char.not_lt.mp hcontrol) hbody, rfl⟩

/-- A string ends at its first quote that is not escaped. -/
theorem Body.end_unique {body body' rest rest' : List Char} {ps ps' : List Piece}
    (h : Body body ps) (h' : Body body' ps')
    (heq : body ++ '"' :: rest = body' ++ '"' :: rest') : body = body' ∧ rest = rest' := by
  have hskip := skipString_body h rest
  rw [heq, skipString_body h' rest'] at hskip
  obtain rfl := Except.ok.inj hskip
  exact ⟨List.append_cancel_right heq, rfl⟩

theorem ShortEscape.unique {e c d : Char} (h : ShortEscape e c) (h' : ShortEscape e d) : c = d :=
  Option.some.inj ((shortEscape_eq_some_iff.mpr h).symm.trans (shortEscape_eq_some_iff.mpr h'))

theorem HexUnit.unique {a b c d : Char} {m n : Nat} (h : HexUnit a b c d m)
    (h' : HexUnit a b c d n) : m = n :=
  Option.some.inj ((hexValue4_eq_some_iff.mpr h).symm.trans (hexValue4_eq_some_iff.mpr h'))

/-- A string has one reading in pieces. -/
theorem Body.pieces_unique {body : List Char} {ps qs : List Piece} (h : Body body ps)
    (h' : Body body qs) : ps = qs := by
  induction h generalizing qs with
  | nil =>
    cases h'
    rfl
  | plain hquote hback hcontrol _ ih =>
    cases h' with
    | plain _ _ _ h' => rw [ih h']
    | short | code => exact absurd rfl hback
  | short he _ ih =>
    cases h' with
    | plain _ hback => exact absurd rfl hback
    | short he' h' => rw [he.unique he', ih h']
    | code => cases he
  | code hn _ ih =>
    cases h' with
    | plain _ hback => exact absurd rfl hback
    | short he => cases he
    | code hn' h' => rw [hn.unique hn', ih h']

/-- Where a string is read, its pieces mean what is read. -/
theorem means_of_readString {body rest rest' s : List Char} {ps : List Piece} (hb : Body body ps)
    (h : readString (body ++ '"' :: rest) = .ok (s, rest')) : Means ps s ∧ rest' = rest := by
  obtain ⟨body', ps', hb', hmeans, heq⟩ := readString_sound h
  obtain ⟨rfl, rfl⟩ := hb.end_unique hb' heq
  exact ⟨hb.pieces_unique hb' ▸ hmeans, rfl⟩

theorem Means.unique {ps : List Piece} {body s t : List Char} (hb : Body body ps)
    (hs : Means ps s) (ht : Means ps t) : s = t := by
  have h := readString_of_means hb hs []
  rw [readString_of_means hb ht] at h
  exact (Prod.mk.inj (Except.ok.inj h)).1.symm

/-! ## Numbers -/

/-- What follows does not go on with a number. -/
def EndsNumber (rest : List Char) : Prop :=
  ∀ c ∈ rest.head?, isDigit c = false ∧ c ≠ '.' ∧ c ≠ 'e' ∧ c ≠ 'E'

/-- What follows does not go on with digits. -/
def EndsDigits (rest : List Char) : Prop := ∀ c ∈ rest.head?, isDigit c = false

theorem EndsNumber.endsDigits {rest : List Char} (h : EndsNumber rest) : EndsDigits rest :=
  fun c hc => (h c hc).1

theorem EndsDigits.skipDigits {rest : List Char} (h : EndsDigits rest) :
    Json.skipDigits rest = rest := by
  cases rest with
  | nil => rfl
  | cons c cs => rw [Json.skipDigits, List.dropWhile_cons_of_neg (by simp [h c rfl])]

theorem EndsDigits.startsDigit {rest : List Char} (h : EndsDigits rest) :
    Json.startsDigit rest = false := by
  cases rest with
  | nil => rfl
  | cons c cs => exact h c rfl

theorem skipDigits_append {ds rest : List Char} (hds : ∀ c ∈ ds, isDigit c = true)
    (h : EndsDigits rest) : skipDigits (ds ++ rest) = rest := by
  rw [skipDigits, List.dropWhile_append_of_pos hds]
  exact h.skipDigits

/-- What is passed over as digits is digits. -/
theorem digits_skipDigits (cs : List Char) :
    ∃ ds, (∀ c ∈ ds, isDigit c = true) ∧ cs = ds ++ skipDigits cs := by
  refine ⟨cs.takeWhile isDigit, fun c hc => ?_, List.takeWhile_append_dropWhile.symm⟩
  exact List.all_eq_true.mp (List.all_takeWhile (p := isDigit)) c hc

theorem Digits.startsDigit {ds : List Char} (h : Digits ds) (rest : List Char) :
    Json.startsDigit (ds ++ rest) = true := by
  obtain ⟨hne, hds⟩ := h
  cases ds with
  | nil => exact absurd rfl hne
  | cons d ds => exact hds d List.mem_cons_self

theorem digits_of_startsDigit {cs : List Char} (h : startsDigit cs = true) :
    ∃ ds, Digits ds ∧ cs = ds ++ skipDigits cs := by
  obtain ⟨ds, hds, hcs⟩ := digits_skipDigits cs
  refine ⟨ds, ⟨?_, hds⟩, hcs⟩
  rintro rfl
  cases cs with
  | nil => cases h
  | cons c cs =>
    have hc : isDigit c = true := h
    rw [skipDigits, List.dropWhile_cons_of_pos hc] at hcs
    have hlen := (List.dropWhile_sublist isDigit (l := cs)).length_le
    rw [List.nil_append] at hcs
    rw [← hcs, List.length_cons] at hlen
    omega

variable {atEnd : Cause} {cs rest : List Char}

theorem skipWhole_append {w : List Char} (hw : Whole w) (h : EndsDigits rest) :
    skipWhole atEnd (w ++ rest) = .ok rest := by
  cases hw with
  | zero =>
    show (if startsDigit rest then _ else _) = _
    rw [h.startsDigit]
    rfl
  | @digits c ds hzero hds =>
    have hc : isDigit c = true := hds.2 c List.mem_cons_self
    have hskip := skipDigits_append (fun d hd => hds.2 d (List.mem_cons_of_mem c hd)) h
    simp only [List.cons_append, skipWhole, if_neg hzero, hc, if_true, hskip]

theorem skipWhole_sound (h : skipWhole atEnd cs = .ok rest) : ∃ w, Whole w ∧ cs = w ++ rest := by
  unfold skipWhole at h
  split at h
  · cases h
  · next c cs =>
    split at h
    · next hzero =>
      split at h
      · cases h
      · cases h
        exact ⟨['0'], .zero, by rw [hzero]; rfl⟩
    · next hzero =>
      split at h
      · next hc =>
        obtain ⟨ds, hds, hcs⟩ := digits_skipDigits cs
        cases h
        refine ⟨c :: ds, .digits hzero ⟨by simp, ?_⟩, by rw [List.cons_append, ← hcs]⟩
        exact List.forall_mem_cons.mpr ⟨hc, hds⟩
      · cases h

theorem skipFraction_append {f : List Char} (hf : Fraction f) (hdigits : EndsDigits rest)
    (hpoint : ∀ c ∈ rest.head?, c ≠ '.') : skipFraction atEnd (f ++ rest) = .ok rest := by
  cases hf with
  | absent =>
    cases rest with
    | nil => rfl
    | cons c cs => simp [skipFraction, hpoint c rfl]
  | present hds =>
    simp only [List.cons_append, skipFraction, ne_eq, not_true, if_false, hds.startsDigit, if_true,
      skipDigits_append hds.2 hdigits]

theorem skipFraction_sound (h : skipFraction atEnd cs = .ok rest) :
    ∃ f, Fraction f ∧ cs = f ++ rest := by
  unfold skipFraction at h
  split at h
  · cases h
    exact ⟨[], .absent, rfl⟩
  · next c cs =>
    split at h
    · cases h
      exact ⟨[], .absent, rfl⟩
    · next hpoint =>
      split at h
      · next hstarts =>
        obtain ⟨ds, hds, hcs⟩ := digits_of_startsDigit hstarts
        cases h
        refine ⟨'.' :: ds, .present hds, ?_⟩
        rw [List.cons_append, ← hcs, Decidable.not_not.mp hpoint]
      · cases h

/-- What is left of an exponent after its letter and its sign. -/
theorem skipExponent_signed {e : Char} {sign ds : List Char} (he : e = 'e' ∨ e = 'E')
    (hsign : sign = [] ∨ sign = ['+'] ∨ sign = ['-']) (hds : Digits ds) (h : EndsDigits rest) :
    skipExponent atEnd (e :: (sign ++ (ds ++ rest))) = .ok rest := by
  have hletter : ¬ (e ≠ 'e' ∧ e ≠ 'E') := by rcases he with rfl | rfl <;> decide
  obtain ⟨hne, hdigit⟩ := hds
  cases ds with
  | nil => exact absurd rfl hne
  | cons d ds =>
    have hd : isDigit d = true := hdigit d List.mem_cons_self
    have hplain : ¬ (d = '+' ∨ d = '-') := by rintro (rfl | rfl) <;> exact absurd hd (by decide)
    have hskip := skipDigits_append (fun c hc => hdigit c (List.mem_cons_of_mem d hc)) h
    rcases hsign with rfl | rfl | rfl <;>
      simp [skipExponent, hletter, hplain, hd, hskip]

theorem skipExponent_append {e : List Char} (he : Exponent e) (hdigits : EndsDigits rest)
    (hletter : ∀ c ∈ rest.head?, c ≠ 'e' ∧ c ≠ 'E') :
    skipExponent atEnd (e ++ rest) = .ok rest := by
  cases he with
  | absent =>
    cases rest with
    | nil => rfl
    | cons c cs =>
      simp only [List.nil_append, skipExponent, hletter c rfl, ne_eq, not_false_eq_true, and_self,
        if_true]
  | present he hsign hds =>
    rw [List.cons_append, List.append_assoc]
    exact skipExponent_signed he hsign hds hdigits

theorem skipExponent_sound (h : skipExponent atEnd cs = .ok rest) :
    ∃ e, Exponent e ∧ cs = e ++ rest := by
  unfold skipExponent at h
  split at h
  · cases h
    exact ⟨[], .absent, rfl⟩
  · next c cs =>
    split at h
    · cases h
      exact ⟨[], .absent, rfl⟩
    · next hletter =>
      have he : c = 'e' ∨ c = 'E' := by
        by_cases hc : c = 'e'
        · exact .inl hc
        · exact .inr (Decidable.not_not.mp fun hc' => hletter ⟨hc, hc'⟩)
      -- the digits after the sign, wherever they start
      have hdigits : ∀ d ds, isDigit d = true → skipDigits ds = rest →
          ∃ ds', Digits ds' ∧ d :: ds = ds' ++ rest := by
        intro d ds hd hskip
        obtain ⟨ds', hds', hds⟩ := digits_skipDigits ds
        refine ⟨d :: ds', ⟨by simp, List.forall_mem_cons.mpr ⟨hd, hds'⟩⟩, ?_⟩
        rw [List.cons_append, ← hskip, ← hds]
      cases cs with
      | nil => cases h
      | cons s cs =>
        by_cases hs : s = '+' ∨ s = '-'
        · simp only [hs, if_true] at h
          cases cs with
          | nil => cases h
          | cons d ds =>
            simp only at h
            split at h
            · next hd =>
              obtain ⟨ds', hds', heq⟩ := hdigits d ds hd (Except.ok.inj h)
              refine ⟨c :: ([s] ++ ds'), .present he (.inr ?_) hds', by rw [heq]; simp⟩
              rcases hs with rfl | rfl
              · exact .inl rfl
              · exact .inr rfl
            · cases h
        · simp only [hs, if_false] at h
          split at h
          · next hd =>
            obtain ⟨ds', hds', heq⟩ := hdigits s cs hd (Except.ok.inj h)
            exact ⟨c :: ([] ++ ds'), .present he (.inl rfl) hds', by rw [heq]; rfl⟩
          · cases h

/-- The parts of a number after its whole part start with no digit, nor does its exponent start
with a point. -/
theorem Exponent.ends {e : List Char} (he : Exponent e) (h : EndsNumber rest) :
    EndsDigits (e ++ rest) ∧ ∀ c ∈ (e ++ rest).head?, c ≠ '.' := by
  cases he with
  | absent => exact ⟨h.endsDigits, fun c hc => (h c hc).2.1⟩
  | present he =>
    constructor <;>
    · rintro c ⟨rfl⟩
      rcases he with rfl | rfl <;> decide

theorem Fraction.endsDigits {f : List Char} (hf : Fraction f) (h : EndsDigits rest) :
    EndsDigits (f ++ rest) := by
  cases hf with
  | absent => exact h
  | present =>
    rintro c ⟨rfl⟩
    decide

/-- A number is passed over when nothing goes on with it. -/
theorem skipNumber_append {n : List Char} (hn : IsMagnitude n) (h : EndsNumber rest) :
    skipNumber atEnd (n ++ rest) = .ok rest := by
  obtain ⟨w, f, e, hw, hf, he, rfl⟩ := hn
  obtain ⟨hdigits, hpoint⟩ := he.ends h
  rw [List.append_assoc, List.append_assoc, skipNumber,
    skipWhole_append hw (hf.endsDigits hdigits)]
  simp only [skipFraction_append hf hdigits hpoint]
  exact skipExponent_append he h.endsDigits fun c hc => (h c hc).2.2

/-- What is passed over as a number is one. -/
theorem skipNumber_sound (h : skipNumber atEnd cs = .ok rest) :
    ∃ n, IsMagnitude n ∧ cs = n ++ rest := by
  unfold skipNumber at h
  split at h
  · cases h
  · next hwhole =>
    split at h
    · cases h
    · next hfraction =>
      obtain ⟨w, hw, rfl⟩ := skipWhole_sound hwhole
      obtain ⟨f, hf, rfl⟩ := skipFraction_sound hfraction
      obtain ⟨e, he, rfl⟩ := skipExponent_sound h
      exact ⟨w ++ (f ++ e), ⟨w, f, e, hw, hf, he, rfl⟩, by simp⟩

end FractalShader.Json
