import FractalShader.Proofs.Json.Scanning

/-!
# Passing over values

A value is passed over exactly when it is one by the grammar, to any depth.  What the
brackets that are open still ask of the text is written down as `Closes`; so one
induction along the run shows that every text that was passed over has the form of a
value, and one along the form that every value is passed over.

* `IsValue.passed` — a value is passed over, whatever brackets are open around it;
* `skip_sound`, `skipValue_sound` — what is passed over is a value;
* `IsValue.end_unique` — so a value has one end.
-/

namespace FractalShader.Json

/-! ## How values start -/

theorem IsMagnitude.head {n : List Char} (h : IsMagnitude n) :
    ∃ c t, n = c :: t ∧ isDigit c = true := by
  obtain ⟨w, f, e, hw, -, -, rfl⟩ := h
  cases hw with
  | zero => exact ⟨_, _, rfl, by decide⟩
  | digits _ hds => exact ⟨_, _, rfl, hds.2 _ List.mem_cons_self⟩

/-- A value starts with a character that is no blank and closes no bracket. -/
theorem IsValue.head {v : List Char} (h : IsValue v) :
    ∃ c t, v = c :: t ∧ isBlank c = false ∧ c ≠ ']' ∧ c ≠ '\x7d' := by
  have hdigit : ∀ c, isDigit c = true → isBlank c = false ∧ c ≠ ']' ∧ c ≠ '\x7d' := by
    intro c hc
    refine ⟨?_, ?_, ?_⟩
    · rw [Bool.eq_false_iff]
      intro hb
      simp only [isBlank, Bool.or_eq_true, decide_eq_true_eq] at hb
      rcases hb with ((rfl | rfl) | rfl) | rfl <;> exact absurd hc (by decide)
    all_goals
      rintro rfl
      exact absurd hc (by decide)
  cases h with
  | null | yes | no => exact ⟨_, _, rfl, by decide, by decide, by decide⟩
  | string | list | object => exact ⟨_, _, rfl, by decide, by decide, by decide⟩
  | number h =>
    rcases h with h | ⟨m, -, rfl⟩
    · obtain ⟨c, t, rfl, hc⟩ := h.head
      exact ⟨c, t, rfl, hdigit c hc⟩
    · exact ⟨_, _, rfl, by decide, by decide, by decide⟩

theorem IsValue.skipBlank {v : List Char} (h : IsValue v) (rest : List Char) :
    Json.skipBlank (v ++ rest) = v ++ rest := by
  obtain ⟨c, t, rfl, hc, -, -⟩ := h.head
  exact skipBlank_cons hc _

/-! ## Single steps -/

variable {stack outer : List Bracket} {b : Bracket} {c : Char} {cs rest : List Char}

/-- Pass over the next entry of the innermost bracket, from its key on. -/
def skipEntry (b : Bracket) (outer : List Bracket) (cs : List Char) : Except Fault (List Char) :=
  match skipKey b cs with
  | .error e => .error e
  | .ok rest => skip (b :: outer) .value rest

theorem skip_value_eq (h : skipBlank cs = c :: rest) : skip stack .value cs =
    if c = '[' then skip (.list :: stack) .entry rest
    else if c = '\x7b' then skip (.object :: stack) .entry rest
    else match skipScalar c rest with
      | .error e => .error e
      | .ok rest' => skip stack .more rest' := by
  rw [skip.eq_def]
  simp only
  split
  · next h' => rw [h] at h'; cases h'
  · next h' =>
    rw [h] at h'
    obtain ⟨rfl, rfl⟩ := List.cons.inj h'
    split
    · rfl
    · split
      · rfl
      · split <;> simp_all

theorem skip_entry_close (h : skipBlank cs = b.close :: rest) :
    skip (b :: outer) .entry cs = skip outer .more rest := by
  rw [skip.eq_def]
  simp only
  split
  · next h' => rw [h] at h'; cases h'
  · next h' =>
    rw [h] at h'
    obtain ⟨rfl, rfl⟩ := List.cons.inj h'
    rw [if_pos rfl]

theorem skip_entry_some (h : skipBlank cs = c :: rest) (hc : c ≠ b.close) :
    skip (b :: outer) .entry cs = skipEntry b outer (c :: rest) := by
  rw [skip.eq_def]
  simp only
  split
  · next h' => rw [h] at h'; cases h'
  · next h' =>
    rw [h] at h'
    obtain ⟨rfl, rfl⟩ := List.cons.inj h'
    rw [if_neg hc, skipEntry]
    split <;> simp_all

theorem skip_more_close (h : skipBlank cs = b.close :: rest) :
    skip (b :: outer) .more cs = skip outer .more rest := by
  have hcomma : b.close ≠ ',' := by cases b <;> decide
  rw [skip.eq_def]
  simp only
  split
  · next h' => rw [h] at h'; cases h'
  · next h' =>
    rw [h] at h'
    obtain ⟨rfl, rfl⟩ := List.cons.inj h'
    rw [if_neg hcomma, if_pos rfl]

theorem skip_more_comma (h : skipBlank cs = ',' :: rest) :
    skip (b :: outer) .more cs = skipEntry b outer rest := by
  rw [skip.eq_def]
  simp only
  split
  · next h' => rw [h] at h'; cases h'
  · next h' =>
    rw [h] at h'
    obtain ⟨rfl, rfl⟩ := List.cons.inj h'
    rw [if_pos rfl, skipEntry]
    split <;> simp_all

/-- Blanks before a value do not count. -/
theorem skip_value_skipBlank (stack : List Bracket) (cs : List Char) :
    skip stack .value (skipBlank cs) = skip stack .value cs := by
  cases h : skipBlank cs with
  | nil =>
    have hnil : ∀ ds, skipBlank ds = [] →
        skip stack .value ds = .error (.before .endInValue []) := by
      intro ds hds
      rw [skip.eq_def]
      simp only
      split
      · rfl
      · next h' => rw [hds] at h'; cases h'
    rw [hnil cs h, hnil [] rfl]
  | cons c rest =>
    have h' : skipBlank (c :: rest) = c :: rest := by rw [← h, skipBlank_skipBlank]
    rw [skip_value_eq h', skip_value_eq h]

theorem skipEntry_skipBlank (b : Bracket) (outer : List Bracket) (cs : List Char) :
    skipEntry b outer (skipBlank cs) = skipEntry b outer cs := by
  cases b with
  | list => exact skip_value_skipBlank _ cs
  | object =>
    have hkey : skipKey .object (skipBlank cs) = skipKey .object cs := by
      simp only [skipKey, skipBlank_skipBlank]
    rw [skipEntry, skipEntry, hkey]

/-! ## Entries -/

theorem readColon_eq_ok_iff :
    readColon cs = .ok ((), rest) ↔ ∃ w, Blanks w ∧ cs = w ++ ':' :: rest := by
  unfold readColon
  constructor
  · intro h
    split at h
    · cases h
    next c r hblank =>
    split at h
    · next hc =>
      cases h
      exact hc ▸ blanks_of_skipBlank hblank
    · cases h
  · rintro ⟨w, hw, rfl⟩
    rw [hw.skipBlank_cons (by decide)]
    rfl

/-- The text is passed over as a value; only a number depends on what follows it. -/
def Passed (v : List Char) : Prop :=
  ∀ stack rest, (IsNumber v → EndsNumber rest) →
    skip stack .value (v ++ rest) = skip stack .more rest

/-- The text is passed over as an entry of the bracket. -/
def PassedIn (b : Bracket) (t : List Char) : Prop :=
  ∀ outer rest, EndsNumber rest → skipEntry b outer (t ++ rest) = skip (b :: outer) .more rest

/-- The text does not start with the end of the bracket. -/
def StartsIn (b : Bracket) (t : List Char) : Prop :=
  ∀ rest, ∃ c cs, skipBlank (t ++ rest) = c :: cs ∧ c ≠ b.close

theorem Passed.skip_blanks {v w : List Char} (hv : Passed v) (hw : Blanks w)
    (stack : List Bracket) (hr : IsNumber v → EndsNumber rest) :
    skip stack .value (w ++ (v ++ rest)) = skip stack .more rest := by
  rw [← skip_value_skipBlank, hw.skipBlank, skip_value_skipBlank]
  exact hv stack rest hr

theorem Item.passedIn {v t : List Char} (h : Item v t) (hv : Passed v) : PassedIn .list t := by
  intro outer rest hr
  obtain ⟨hw⟩ := h
  rw [List.append_assoc]
  exact hv.skip_blanks hw _ fun _ => hr

theorem Item.startsIn {v t : List Char} (h : Item v t) (hv : IsValue v) : StartsIn .list t := by
  intro rest
  obtain ⟨hw⟩ := h
  obtain ⟨c, cs, rfl, hblank, hlist, -⟩ := hv.head
  refine ⟨c, cs ++ rest, ?_, hlist⟩
  rw [List.append_assoc, List.cons_append, hw.skipBlank_cons hblank]

theorem Member.passedIn {m : Option String × List Char} {t : List Char} (h : Member m t)
    (hv : Passed m.2) : PassedIn .object t := by
  intro outer rest hr
  obtain ⟨hw, hbody, -, h₁, h₂⟩ := h
  rename_i w body w₁ w₂ v ps name
  have hcolon : readColon (w₁ ++ ':' :: (w₂ ++ (v ++ rest))) = .ok ((), w₂ ++ (v ++ rest)) :=
    readColon_eq_ok_iff.mpr ⟨w₁, h₁, rfl⟩
  have hkey : skipKey .object (w ++ '"' :: (body ++ '"' :: (w₁ ++ ':' :: (w₂ ++ v))) ++ rest)
      = .ok (w₂ ++ (v ++ rest)) := by
    simp only [List.append_assoc, List.cons_append, skipKey,
      hw.skipBlank_cons (c := '"') (by decide), if_true, skipString_body hbody, hcolon, Except.map]
  rw [skipEntry, hkey]
  exact hv.skip_blanks h₂ _ fun _ => hr

theorem Member.startsIn {m : Option String × List Char} {t : List Char} (h : Member m t) :
    StartsIn .object t := by
  intro rest
  obtain ⟨hw, -, -, -, -⟩ := h
  rw [List.append_assoc, List.cons_append, hw.skipBlank_cons (by decide)]
  exact ⟨_, _, rfl, by decide⟩

theorem Blanks.endsNumber {w : List Char} (hw : Blanks w) (h : EndsNumber rest) :
    EndsNumber (w ++ rest) := by
  cases w with
  | nil => exact h
  | cons c w =>
    intro d hd
    obtain rfl : c = d := Option.some.inj hd
    have hc := hw c List.mem_cons_self
    simp only [isBlank, Bool.or_eq_true, decide_eq_true_eq] at hc
    rcases hc with ((rfl | rfl) | rfl) | rfl <;> decide

theorem endsNumber_comma (rest : List Char) : EndsNumber (',' :: rest) := by
  intro c hc
  obtain rfl : ',' = c := Option.some.inj hc
  decide

theorem endsNumber_close (b : Bracket) (rest : List Char) : EndsNumber (b.close :: rest) := by
  intro c hc
  obtain rfl : b.close = c := Option.some.inj hc
  cases b <;> decide

section Entries

variable {α : Type} {P : α → List Char → Prop} {as : List α} {ts es : List Char}

/-- No number goes on after an entry. -/
theorem Later.endsNumber (h : Later P as ts) (b : Bracket) (rest : List Char) :
    EndsNumber (ts ++ b.close :: rest) := by
  cases h with
  | done hw => exact hw.endsNumber (endsNumber_close b rest)
  | more hw =>
    rw [List.append_assoc]
    exact hw.endsNumber (endsNumber_comma _)

theorem isBlank_close (b : Bracket) : isBlank b.close = false := by
  cases b <;> decide

theorem skip_later (h : Later P as ts) (hP : ∀ a ∈ as, ∀ t, P a t → PassedIn b t) :
    skip (b :: outer) .more (ts ++ b.close :: rest) = skip outer .more rest := by
  induction h with
  | done hw => exact skip_more_close (hw.skipBlank_cons (isBlank_close b) rest)
  | @more w t ts a as hw h hs ih =>
    have hcomma : skipBlank (w ++ ',' :: (t ++ ts) ++ b.close :: rest)
        = ',' :: (t ++ (ts ++ b.close :: rest)) := by
      rw [List.append_assoc, List.cons_append, List.append_assoc]
      exact hw.skipBlank_cons (by decide) _
    calc skip (b :: outer) .more (w ++ ',' :: (t ++ ts) ++ b.close :: rest)
        = skipEntry b outer (t ++ (ts ++ b.close :: rest)) := skip_more_comma hcomma
      _ = skip (b :: outer) .more (ts ++ b.close :: rest) :=
          hP a List.mem_cons_self t h outer _ (hs.endsNumber b rest)
      _ = skip outer .more rest := ih fun a ha => hP a (List.mem_cons_of_mem _ ha)

theorem skip_entries (h : Entries P as es) (hP : ∀ a ∈ as, ∀ t, P a t → PassedIn b t)
    (hstart : ∀ a ∈ as, ∀ t, P a t → StartsIn b t) :
    skip (b :: outer) .entry (es ++ b.close :: rest) = skip outer .more rest := by
  cases h with
  | none hw => exact skip_entry_close (hw.skipBlank_cons (isBlank_close b) rest)
  | @some t ts a as h hs =>
    obtain ⟨c, cs, hblank, hc⟩ := hstart a List.mem_cons_self t h (ts ++ b.close :: rest)
    rw [List.append_assoc]
    calc skip (b :: outer) .entry (t ++ (ts ++ b.close :: rest))
        = skipEntry b outer (c :: cs) := skip_entry_some hblank hc
      _ = skipEntry b outer (t ++ (ts ++ b.close :: rest)) := by
          rw [← hblank, skipEntry_skipBlank]
      _ = skip (b :: outer) .more (ts ++ b.close :: rest) :=
          hP a List.mem_cons_self t h outer _ (hs.endsNumber b rest)
      _ = skip outer .more rest := skip_later hs fun a ha => hP a (List.mem_cons_of_mem _ ha)

end Entries

/-! ## Values -/

theorem readWord_append (word rest : List Char) :
    readWord word (word ++ rest) = .ok ((), rest) := by
  induction word with
  | nil => rfl
  | cons w ws ih => simp only [List.cons_append, readWord, if_true, ih]

/-- The form of a value that is neither a list nor an object. -/
inductive IsScalar : List Char → Prop where
  | null : IsScalar ['n', 'u', 'l', 'l']
  | yes : IsScalar ['t', 'r', 'u', 'e']
  | no : IsScalar ['f', 'a', 'l', 's', 'e']
  | number {v : List Char} (h : IsNumber v) : IsScalar v
  | string {body : List Char} {ps : List Piece} (h : Body body ps) :
      IsScalar ('"' :: (body ++ ['"']))

theorem IsScalar.isValue {v : List Char} (h : IsScalar v) : IsValue v := by
  cases h with
  | null => exact .null
  | yes => exact .yes
  | no => exact .no
  | number h => exact .number h
  | string h => exact .string h

theorem skipScalar_digit {c : Char} (hc : isDigit c = true) (t : List Char) :
    skipScalar c t = skipNumber .invalidNumber (c :: t) := by
  have hother : ∀ d, isDigit d = false → c ≠ d := by
    rintro d hd rfl
    rw [hc] at hd
    cases hd
  rw [skipScalar, if_neg (hother 'n' (by decide)), if_neg (hother 't' (by decide)),
    if_neg (hother 'f' (by decide)), if_neg (hother '-' (by decide)), if_pos hc]

theorem IsScalar.skipScalar {v : List Char} (h : IsScalar v) (hr : IsNumber v → EndsNumber rest) :
    ∃ c t, v ++ rest = c :: t ∧ c ≠ '[' ∧ c ≠ '\x7b' ∧ Json.skipScalar c t = .ok rest := by
  have hword : ∀ word, (readWord word (word ++ rest)).map Prod.snd = .ok rest := by
    intro word
    rw [readWord_append]
    rfl
  cases h with
  | null => exact ⟨_, _, rfl, by decide, by decide, hword ['u', 'l', 'l']⟩
  | yes => exact ⟨_, _, rfl, by decide, by decide, hword ['r', 'u', 'e']⟩
  | no => exact ⟨_, _, rfl, by decide, by decide, hword ['a', 'l', 's', 'e']⟩
  | @string body ps h =>
    refine ⟨'"', body ++ '"' :: rest, by simp, by decide, by decide, skipString_body h rest⟩
  | number hn =>
    have hends := hr hn
    rcases hn with h | ⟨m, h, rfl⟩
    · obtain ⟨c, t, rfl, hc⟩ := h.head
      refine ⟨c, t ++ rest, rfl, ?_, ?_, ?_⟩
      · rintro rfl
        exact absurd hc (by decide)
      · rintro rfl
        exact absurd hc (by decide)
      · rw [skipScalar_digit hc]
        exact skipNumber_append h hends
    · exact ⟨_, _, rfl, by decide, by decide, skipNumber_append h hends⟩

theorem map_snd_eq_ok {α : Type} {r : Except Fault (α × List Char)}
    (h : r.map Prod.snd = .ok rest) : ∃ a, r = .ok (a, rest) := by
  cases r with
  | error e => cases h
  | ok p =>
    obtain ⟨a, r⟩ := p
    obtain rfl : r = rest := Except.ok.inj h
    exact ⟨a, rfl⟩

theorem skipScalar_sound {c : Char} {t : List Char} (h : skipScalar c t = .ok rest) :
    ∃ v, IsScalar v ∧ c :: t = v ++ rest := by
  have hword : ∀ {word}, (readWord word t).map Prod.snd = .ok rest → t = word ++ rest := by
    intro word hread
    obtain ⟨u, hread⟩ := map_snd_eq_ok hread
    exact readWord_eq_ok hread
  unfold skipScalar at h
  split at h
  · next hc => exact ⟨_, .null, by rw [hc, hword h]; rfl⟩
  split at h
  · next hc => exact ⟨_, .yes, by rw [hc, hword h]; rfl⟩
  split at h
  · next hc => exact ⟨_, .no, by rw [hc, hword h]; rfl⟩
  split at h
  · next hc =>
    obtain ⟨n, hn, rfl⟩ := skipNumber_sound h
    exact ⟨_, .number (.inr ⟨n, hn, rfl⟩), by rw [hc]; rfl⟩
  split at h
  · obtain ⟨n, hn, heq⟩ := skipNumber_sound h
    exact ⟨n, .number (.inl hn), heq⟩
  split at h
  · next hc =>
    obtain ⟨body, ps, hb, rfl⟩ := skipString_sound h
    exact ⟨_, .string hb, by simp [hc]⟩
  · cases h

theorem IsScalar.passed {v : List Char} (h : IsScalar v) : Passed v := by
  intro stack rest hr
  obtain ⟨c, t, ht, hlist, hobject, hskip⟩ := h.skipScalar hr
  have hblank : skipBlank (v ++ rest) = c :: t := (h.isValue.skipBlank rest).trans ht
  rw [skip_value_eq hblank, if_neg hlist, if_neg hobject, hskip]

/-- A value is passed over, whatever brackets are open around it. -/
theorem IsValue.passed {v : List Char} (h : IsValue v) : Passed v := by
  induction h with
  | null => exact IsScalar.null.passed
  | yes => exact IsScalar.yes.passed
  | no => exact IsScalar.no.passed
  | number h => exact (IsScalar.number h).passed
  | string h => exact (IsScalar.string h).passed
  | list h hv ih =>
    intro stack rest _
    rw [List.cons_append, skip_value_eq (skipBlank_cons (by decide) _), if_pos rfl,
      List.append_assoc]
    exact skip_entries (b := .list) h (fun v hm t ht => ht.passedIn (ih v hm))
      fun v hm t ht => ht.startsIn (hv v hm)
  | object h hv ih =>
    intro stack rest _
    rw [List.cons_append, skip_value_eq (skipBlank_cons (by decide) _), if_neg (by decide),
      if_pos rfl, List.append_assoc]
    exact skip_entries (b := .object) h (fun m hm t ht => ht.passedIn (ih m hm))
      fun m hm t ht => ht.startsIn

/-! ## What was passed over -/

namespace Bracket

/-- What stands in a bracket: values, or values with names. -/
def Entry : Bracket → Type
  | list => List Char
  | object => Option String × List Char

def value : (b : Bracket) → b.Entry → List Char
  | list, v => v
  | object, m => m.2

/-- How an entry is written, with the blanks before it. -/
def Form : (b : Bracket) → b.Entry → List Char → Prop
  | list => Item
  | object => Member

end Bracket

/-- What is left of a text once the bracket just opened has ended. -/
def Ends (b : Bracket) (cs left : List Char) : Prop :=
  ∃ as es, Entries b.Form as es ∧ (∀ a ∈ as, IsValue (b.value a)) ∧ cs = es ++ b.close :: left

/-- What is left of a text once the bracket has ended in which an entry was just read. -/
def EndsLater (b : Bracket) (cs left : List Char) : Prop :=
  ∃ as ts, Later b.Form as ts ∧ (∀ a ∈ as, IsValue (b.value a)) ∧ cs = ts ++ b.close :: left

/-- What is left of a text once all open brackets have ended. -/
def Closes : List Bracket → List Char → List Char → Prop
  | [], cs, left => cs = left
  | b :: outer, cs, left => ∃ cs', EndsLater b cs cs' ∧ Closes outer cs' left

/-- What is left of a text that was passed over. -/
def Finishes : Expecting → List Bracket → List Char → List Char → Prop
  | .value, stack, cs, left => ∃ w v cs', Blanks w ∧ IsValue v ∧ cs = w ++ (v ++ cs') ∧
      Closes stack cs' left
  | .entry, [], cs, left => cs = left
  | .entry, b :: outer, cs, left => ∃ cs', Ends b cs cs' ∧ Closes outer cs' left
  | .more, stack, cs, left => Closes stack cs left

theorem exists_names (ps : List Piece) : ∃ name, Names ps name := by
  rcases Classical.em (∃ s : String, Means ps s.toList) with ⟨s, hs⟩ | hnone
  · exact ⟨some s, hs⟩
  · exact ⟨none, fun s hs => hnone ⟨String.ofList s, String.toList_ofList.symm ▸ hs⟩⟩

/-- What stands before a value makes it an entry. -/
theorem skipKey_sound (h : skipKey b cs = .ok rest) :
    ∃ k, cs = k ++ rest ∧ ∀ w₀ w v, Blanks w₀ → Blanks w →
      ∃ a : b.Entry, b.value a = v ∧ b.Form a (w₀ ++ (k ++ (w ++ v))) := by
  cases b with
  | list =>
    obtain rfl : cs = rest := Except.ok.inj h
    refine ⟨[], rfl, fun w₀ w v hw₀ hw => ⟨v, rfl, ?_⟩⟩
    rw [List.nil_append, ← List.append_assoc]
    exact .mk (hw₀.append hw)
  | object =>
    simp only [skipKey] at h
    split at h
    · cases h
    next c cs' hblank =>
    obtain ⟨w₁, hw₁, rfl⟩ := blanks_of_skipBlank hblank
    split at h
    · next hc =>
      subst hc
      split at h
      · cases h
      next r hskip =>
      obtain ⟨body, ps, hbody, rfl⟩ := skipString_sound hskip
      obtain ⟨u, hcolon⟩ := map_snd_eq_ok h
      obtain ⟨w₂, hw₂, rfl⟩ := readColon_eq_ok_iff.mp hcolon
      obtain ⟨name, hname⟩ := exists_names ps
      refine ⟨w₁ ++ '"' :: (body ++ '"' :: (w₂ ++ [':'])), by simp, fun w₀ w v hw₀ hw => ?_⟩
      refine ⟨(name, v), rfl, ?_⟩
      show Member (name, v) _
      simpa using Member.mk (hw₀.append hw₁) hbody hname hw₂ hw
    · cases h

/-- An entry that was passed over stands before what ends its bracket. -/
theorem Finishes.entry {w₀ key left : List Char} (h : Finishes .value (b :: outer) key left)
    (hw₀ : Blanks w₀) (hkey : skipKey b cs = .ok key) :
    ∃ (a : b.Entry) (t later cs' : List Char), b.Form a t ∧ IsValue (b.value a) ∧
      w₀ ++ cs = t ++ later ∧ EndsLater b later cs' ∧ Closes outer cs' left := by
  obtain ⟨w, v, later, hw, hv, rfl, cs', hlater, hcloses⟩ := h
  obtain ⟨k, rfl, hform⟩ := skipKey_sound hkey
  obtain ⟨a, rfl, ha⟩ := hform w₀ w v hw₀ hw
  exact ⟨a, _, later, cs', ha, hv, by simp, hlater, hcloses⟩

theorem Ends.of_blanks {w : List Char} (hw : Blanks w) : Ends b (w ++ b.close :: rest) rest :=
  ⟨[], w, .none hw, by simp, rfl⟩

theorem Ends.of_entry {a : b.Entry} {t later : List Char} (ha : b.Form a t)
    (hv : IsValue (b.value a)) (h : EndsLater b later rest) : Ends b (t ++ later) rest := by
  obtain ⟨as, ts, hs, hvs, rfl⟩ := h
  exact ⟨a :: as, t ++ ts, .some ha hs, List.forall_mem_cons.mpr ⟨hv, hvs⟩, by simp⟩

theorem EndsLater.of_blanks {w : List Char} (hw : Blanks w) :
    EndsLater b (w ++ b.close :: rest) rest :=
  ⟨[], w, .done hw, by simp, rfl⟩

theorem EndsLater.of_entry {a : b.Entry} {w t later : List Char} (hw : Blanks w) (ha : b.Form a t)
    (hv : IsValue (b.value a)) (h : EndsLater b later rest) :
    EndsLater b (w ++ ',' :: (t ++ later)) rest := by
  obtain ⟨as, ts, hs, hvs, rfl⟩ := h
  exact ⟨a :: as, w ++ ',' :: (t ++ ts), .more hw ha hs, List.forall_mem_cons.mpr ⟨hv, hvs⟩,
    by simp⟩

/-- What is passed over has the form of what was expected. -/
theorem skip_sound {expecting : Expecting} (h : skip stack expecting cs = .ok rest) :
    Finishes expecting stack cs rest := by
  fun_induction skip stack expecting cs with
  | case1 | case4 | case7 | case9 | case12 | case13 | case16 => cases h
  | case6 | case11 => exact Except.ok.inj h
  | case2 stack cs r hblank _ ih =>
    obtain ⟨w, hw, rfl⟩ := blanks_of_skipBlank hblank
    obtain ⟨cs', ⟨as, es, hes, hv, rfl⟩, hcloses⟩ := ih h
    exact ⟨w, _, cs', hw, .list hes hv, by simp [Bracket.close], hcloses⟩
  | case3 stack cs r hblank _ _ ih =>
    obtain ⟨w, hw, rfl⟩ := blanks_of_skipBlank hblank
    obtain ⟨cs', ⟨as, es, hes, hv, rfl⟩, hcloses⟩ := ih h
    exact ⟨w, _, cs', hw, .object hes hv, by simp [Bracket.close], hcloses⟩
  | case5 stack cs c r hblank _ _ _ r' hscalar _ ih =>
    obtain ⟨w, hw, rfl⟩ := blanks_of_skipBlank hblank
    obtain ⟨v, hv, heq⟩ := skipScalar_sound hscalar
    exact ⟨w, v, r', hw, hv.isValue, by rw [heq], ih h⟩
  | case8 b outer cs r hblank _ ih =>
    obtain ⟨w, hw, rfl⟩ := blanks_of_skipBlank hblank
    exact ⟨r, .of_blanks hw, ih h⟩
  | case10 b outer cs c r hblank _ _ key hkey _ ih =>
    obtain ⟨w, hw, rfl⟩ := blanks_of_skipBlank hblank
    obtain ⟨a, t, later, cs', ha, hv, heq, hlater, hcloses⟩ := (ih h).entry hw hkey
    exact ⟨cs', heq ▸ .of_entry ha hv hlater, hcloses⟩
  | case14 cs b outer r key hkey _ hblank _ ih =>
    obtain ⟨w, hw, rfl⟩ := blanks_of_skipBlank hblank
    obtain ⟨a, t, later, cs', ha, hv, heq, hlater, hcloses⟩ := (ih h).entry blanks_nil hkey
    rw [List.nil_append] at heq
    exact ⟨cs', heq ▸ .of_entry hw ha hv hlater, hcloses⟩
  | case15 b outer cs r hblank _ _ ih =>
    obtain ⟨w, hw, rfl⟩ := blanks_of_skipBlank hblank
    exact ⟨r, .of_blanks hw, ih h⟩

/-! ## Whole values -/

variable {v w left : List Char}

theorem skipValue_sound {u : Unit} (h : skipValue cs = .ok (u, left)) :
    ∃ w v, Blanks w ∧ IsValue v ∧ cs = w ++ (v ++ left) := by
  unfold skipValue at h
  cases hskip : skip [] .value cs with
  | error e => rw [hskip] at h; cases h
  | ok r =>
    rw [hskip] at h
    cases h
    obtain ⟨w, v, cs', hw, hv, rfl, rfl⟩ := skip_sound hskip
    exact ⟨w, v, hw, hv, rfl⟩

theorem IsValue.skipValue (hv : IsValue v) (hw : Blanks w) (hr : IsNumber v → EndsNumber rest) :
    skipValue (w ++ (v ++ rest)) = .ok ((), rest) := by
  rw [Json.skipValue, hv.passed.skip_blanks hw [] hr, skip.eq_def]
  rfl

/-- A value has one end: two values that start one text are the same, unless they are numbers that
go on. -/
theorem IsValue.end_unique {v' w' : List Char} (hv : IsValue v) (hv' : IsValue v') (hw : Blanks w)
    (hw' : Blanks w') (hr : IsNumber v → EndsNumber rest) (hr' : IsNumber v' → EndsNumber left)
    (h : w ++ (v ++ rest) = w' ++ (v' ++ left)) : v = v' ∧ rest = left := by
  have hrest : rest = left := by
    have hskip := hv.skipValue hw hr
    rw [h, hv'.skipValue hw' hr'] at hskip
    exact (Prod.mk.inj (Except.ok.inj hskip)).2.symm
  subst hrest
  have hblank : v ++ rest = v' ++ rest := by
    rw [← hv.skipBlank, ← hw.skipBlank, h, hw'.skipBlank, hv'.skipBlank]
  exact ⟨List.append_cancel_right hblank, rfl⟩

end FractalShader.Json
