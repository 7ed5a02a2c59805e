import FractalShader.Json.Printer
import FractalShader.Json.Record

/-!
# Reading what was written

The readers of records meet the texts of the printer: blanks between entries are
passed over, a quoted key or tag is read back, and a spread list or object is
read entry by entry.

* `readTag_quote` — a written tag is read back, whatever follows it;
* `readTags_spread` — so is a list of tags;
* `readMembers_spreadMember`, `readMembers_closing` — one member of an object at
  a time, up to the brace that ends it.
-/

namespace FractalShader.Json

/-! ## Blanks -/

theorem skipBlank_cons {c : Char} (h : isBlank c = false) (cs : List Char) :
    skipBlank (c :: cs) = c :: cs := by
  rw [skipBlank, List.dropWhile_cons_of_neg (by simp [h])]

theorem skipBlank_blank {c : Char} (h : isBlank c = true) (cs : List Char) :
    skipBlank (c :: cs) = skipBlank cs := by
  rw [skipBlank, List.dropWhile_cons_of_pos h, skipBlank]

theorem skipBlank_newLine (depth : Nat) (cs : List Char) :
    skipBlank (newLine depth ++ cs) = skipBlank cs := by
  have hspaces : ∀ n, skipBlank (List.replicate n ' ' ++ cs) = skipBlank cs := by
    intro n
    induction n with
    | zero => rfl
    | succ n ih => rw [List.replicate_succ, List.cons_append, skipBlank_blank (by decide), ih]
  rw [newLine, List.cons_append, skipBlank_blank (by decide), hspaces]

theorem quote_append (s : String) (rest : List Char) :
    quote s ++ rest = '"' :: (quoteBody s.toList ++ '"' :: rest) := by
  simp [quote]

theorem skipBlank_quote (s : String) (rest : List Char) :
    skipBlank (quote s ++ rest) = quote s ++ rest := by
  rw [quote_append, skipBlank_cons (by decide)]

/-! ## Keys and tags -/

theorem readTag_quote {cs rest : List Char} {s : String} (h : skipBlank cs = quote s ++ rest) :
    readTag cs = .ok (s, rest) := by
  rw [readTag, h, quote_append]
  simp [readString_quoteBody, Except.map, String.ofList_toList]

theorem readKey_quote (s : String) (rest : List Char) :
    readKey (quote s ++ rest) = .ok (s, rest) := by
  rw [quote_append, readKey]
  simp [readString_quoteBody, Except.map, String.ofList_toList]

theorem readColon_colon (rest : List Char) : readColon (':' :: rest) = .ok ((), rest) := by
  rw [readColon, skipBlank_cons (by decide)]
  rfl

/-! ## Lists of tags -/

/-- Entries after commas, each on a line of its own. -/
def laterEntries (depth : Nat) (entries : List (List Char)) : List Char :=
  entries.flatMap fun e => ',' :: (newLine depth ++ e)

/-- Joined entries are the first and then each other one after a comma. -/
theorem intercalate_newLine (depth : Nat) (e : List Char) (es : List (List Char)) :
    [','].intercalate ((e :: es).map fun e => newLine depth ++ e)
      = newLine depth ++ e ++ laterEntries depth es := by
  induction es generalizing e with
  | nil => simp [laterEntries, List.intercalate_singleton]
  | cons e' es ih =>
    have ih := ih e'
    rw [List.map_cons] at ih
    rw [List.map_cons, List.map_cons, List.intercalate_cons_cons, ih]
    simp [laterEntries]

theorem spread_cons (opening closing : Char) (depth : Nat) (e : List Char)
    (es : List (List Char)) :
    spread opening closing depth (e :: es) = opening :: (newLine (depth + 1) ++ (e
      ++ (laterEntries (depth + 1) es ++ (newLine depth ++ [closing])))) := by
  rw [spread, if_neg (by simp), intercalate_newLine]
  simp

theorem moreEntries_first {cs rest : List Char} {s : String}
    (h : skipBlank cs = quote s ++ rest) : moreEntries true cs = .ok (true, quote s ++ rest) := by
  rw [moreEntries, h, quote_append]
  rfl

theorem moreEntries_later {cs rest : List Char} {s : String}
    (h : skipBlank cs = quote s ++ rest) :
    moreEntries false (',' :: cs) = .ok (true, quote s ++ rest) := by
  rw [moreEntries, skipBlank_cons (by decide)]
  simp only [h, quote_append]
  rfl

theorem moreEntries_closing {cs rest : List Char} {first : Bool}
    (h : skipBlank cs = ']' :: rest) : moreEntries first cs = .ok (false, ']' :: rest) := by
  rw [moreEntries, h]
  rfl

theorem endList_closing (rest : List Char) : endList (']' :: rest) = .ok rest := by
  rw [endList, skipBlank_cons (by decide)]
  rfl

/-- The step that `readTagEntries` takes where there is another entry. -/
theorem readTagEntries_more {first : Bool} {cs r₁ r₂ : List Char} {tag : String}
    (hm : moreEntries first cs = .ok (true, r₁)) (ht : readTag r₁ = .ok (tag, r₂)) :
    readTagEntries first cs =
      (readTagEntries false r₂).map fun p => (tag :: p.1, p.2) := by
  rw [readTagEntries]
  split
  · next h => rw [hm] at h; exact absurd h (by simp)
  · next h => rw [hm] at h; exact absurd h (by simp)
  · next r h =>
    rw [hm] at h
    obtain rfl : r₁ = r := (Prod.mk.inj (Except.ok.inj h)).2
    split
    · next h' => rw [ht] at h'; exact absurd h' (by simp)
    · next h' =>
      rw [ht] at h'
      obtain ⟨rfl, rfl⟩ := Prod.mk.inj (Except.ok.inj h')
      cases readTagEntries false r₂ <;> rfl

theorem readTagEntries_done {first : Bool} {cs rest : List Char}
    (h : skipBlank cs = ']' :: rest) : readTagEntries first cs = .ok ([], rest) := by
  have hm : moreEntries first cs = .ok (false, ']' :: rest) := moreEntries_closing h
  rw [readTagEntries]
  split
  · next h' => rw [hm] at h'; exact absurd h' (by simp)
  · next r h' =>
    rw [hm] at h'
    obtain rfl : ']' :: rest = r := (Prod.mk.inj (Except.ok.inj h')).2
    rw [endList_closing]
    rfl
  · next h' => rw [hm] at h'; exact absurd h' (by simp)

theorem readTagEntries_later (depth : Nat) (tags : List String) {end_ rest : List Char}
    (hend : skipBlank end_ = ']' :: rest) :
    readTagEntries false (laterEntries depth (tags.map quote) ++ end_) = .ok (tags, rest) := by
  induction tags with
  | nil => exact readTagEntries_done hend
  | cons tag tags ih =>
    have htext : laterEntries depth ((tag :: tags).map quote) ++ end_ = ',' :: (newLine depth
        ++ (quote tag ++ (laterEntries depth (tags.map quote) ++ end_))) := by
      simp [laterEntries]
    have hblank := (skipBlank_newLine depth
      (quote tag ++ (laterEntries depth (tags.map quote) ++ end_))).trans (skipBlank_quote tag _)
    rw [htext, readTagEntries_more (moreEntries_later hblank)
      (readTag_quote (skipBlank_quote tag _)), ih]
    rfl

/-- A list of tags is read back, whatever follows it. -/
theorem readTags_spread (depth : Nat) (tags : List String) {cs rest : List Char}
    (h : skipBlank cs = spread '[' ']' depth (tags.map quote) ++ rest) :
    readTags cs = .ok (tags, rest) := by
  rw [readTags, h]
  cases tags with
  | nil =>
    show readTagEntries true (']' :: rest) = _
    exact readTagEntries_done (skipBlank_cons (by decide) rest)
  | cons tag tags =>
    have hend : skipBlank (newLine depth ++ ']' :: rest) = ']' :: rest := by
      rw [skipBlank_newLine, skipBlank_cons (by decide)]
    have htext : spread '[' ']' depth ((tag :: tags).map quote) ++ rest = '[' ::
        (newLine (depth + 1) ++ (quote tag ++ (laterEntries (depth + 1) (tags.map quote)
          ++ (newLine depth ++ ']' :: rest)))) := by
      rw [List.map_cons, spread_cons]
      simp
    have hblank := (skipBlank_newLine (depth + 1) (quote tag
      ++ (laterEntries (depth + 1) (tags.map quote) ++ (newLine depth ++ ']' :: rest)))).trans
        (skipBlank_quote tag _)
    rw [htext]
    show readTagEntries true _ = _
    rw [readTagEntries_more (moreEntries_first hblank) (readTag_quote (skipBlank_quote tag _)),
      readTagEntries_later (depth + 1) tags hend]
    rfl

/-! ## Members -/

section Members

variable {σ : Type} {schema : Schema σ} {seen : List String} {s s' : σ}

/-- The step that `readMembers` takes at a member. -/
theorem readMembers_step {first : Bool} {cs r₀ r₁ r₂ r₃ start : List Char} {c : Char}
    {key : String} (hb : skipBlank cs = c :: r₀) (hc : c ≠ '\x7d')
    (hn : nextKey first c r₀ = .ok start) (hk : readKey start = .ok (key, r₁))
    (hf : keyFault? schema seen key = none) (hcolon : readColon r₁ = .ok ((), r₂))
    (hm : readMember schema key s r₂ = .ok (s', r₃)) :
    readMembers schema first seen s cs = readMembers schema false
      (if key ∈ schema.fields.map Field.name then key :: seen else seen) s' r₃ := by
  rw [readMembers]
  split
  · next h => rw [hb] at h; exact absurd h (by simp)
  · next h =>
    rw [hb] at h
    obtain ⟨rfl, rfl⟩ := List.cons.inj h
    rw [if_neg hc]
    split
    · next h' => rw [hn] at h'; exact absurd h' (by simp)
    · next h' =>
      rw [hn] at h'
      obtain rfl := Except.ok.inj h'
      split
      · next h'' => rw [hk] at h''; exact absurd h'' (by simp)
      · next h'' =>
        rw [hk] at h''
        obtain ⟨rfl, rfl⟩ := Prod.mk.inj (Except.ok.inj h'')
        rw [hf]
        simp only
        split
        · next h₃ => rw [hcolon] at h₃; exact absurd h₃ (by simp)
        · next h₃ =>
          rw [hcolon] at h₃
          obtain ⟨-, rfl⟩ := Prod.mk.inj (Except.ok.inj h₃)
          split
          · next h₄ => rw [hm] at h₄; exact absurd h₄ (by simp)
          · next h₄ =>
            rw [hm] at h₄
            obtain ⟨rfl, rfl⟩ := Prod.mk.inj (Except.ok.inj h₄)
            rfl

/-- A written member is read where it stands; a comma comes before every one but the first. -/
theorem readMembers_spreadMember {first : Bool} {depth : Nat} {key : String}
    {value rest r : List Char} {comma : List Char}
    (hcomma : comma = if first then [] else [','])
    (hf : keyFault? schema seen key = none)
    (hm : readMember schema key s (' ' :: (value ++ rest)) = .ok (s', r)) :
    readMembers schema first seen s (comma ++ (newLine depth ++ (spreadMember key value ++ rest)))
      = readMembers schema false
        (if key ∈ schema.fields.map Field.name then key :: seen else seen) s' r := by
  have htext : spreadMember key value ++ rest = quote key ++ (':' :: ' ' :: (value ++ rest)) := by
    simp [spreadMember]
  have hblank : skipBlank (newLine depth ++ (spreadMember key value ++ rest))
      = '"' :: (quoteBody key.toList ++ '"' :: ':' :: ' ' :: (value ++ rest)) := by
    rw [skipBlank_newLine, htext, skipBlank_quote, quote_append]
  have hkey := readKey_quote key (':' :: ' ' :: (value ++ rest))
  rw [quote_append] at hkey
  cases first with
  | true =>
    rw [hcomma]
    exact readMembers_step hblank (by decide) rfl hkey hf (readColon_colon _) hm
  | false =>
    rw [hcomma]
    refine readMembers_step (skipBlank_cons (by decide) _) (by decide) ?_ hkey hf
      (readColon_colon _) hm
    show nextKey false ',' (newLine depth ++ (spreadMember key value ++ rest)) = _
    rw [nextKey, hblank]
    rfl

theorem readMembers_closing {first : Bool} {cs rest : List Char}
    (h : skipBlank cs = '\x7d' :: rest) : readMembers schema first seen s cs = .ok (s, rest) := by
  rw [readMembers]
  split
  · next h' => rw [h] at h'; exact absurd h' (by simp)
  · next h' =>
    rw [h] at h'
    obtain ⟨rfl, rfl⟩ := List.cons.inj h'
    rw [if_pos rfl]

end Members

end FractalShader.Json
