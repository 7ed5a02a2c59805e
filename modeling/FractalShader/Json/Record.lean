import FractalShader.Json.Skip

/-!
# Reading records

A record is written as an object whose members may come in any order, or as a
list that gives the fields by position; what is missing keeps the value it had.
A `Schema` says which fields there are and how each is read.

* `readTag_shorter`, `readTags_shorter`, `readStringValue_shorter` — the readers of
  field values consume what they read, as `Field.shorter` asks;
* `readAll_eq_ok_iff` — a whole text is read when nothing but blanks is left.
-/

namespace FractalShader.Json

/-! ## Values of a wrong type -/

/-- The fault where `expected` was wanted and another value starts.  A value that is itself
ill-formed is refused for that; a list or an object is not looked into. -/
def wrongType (expected : String) (cs : List Char) : Fault :=
  match cs with
  | [] => .before .expectedValue []
  | c :: rest =>
    let wordFault (word : List Char) (found : Found) : Fault :=
      match readWord word rest with
      | .error e => e
      | .ok (_, rest') => .before (.invalidType found expected) rest'
    let numberFault (negative : Bool) (start : List Char) : Fault :=
      match skipNumber .endInValue start with
      | .error e => e
      | .ok rest' =>
        let text := start.take (start.length - rest'.length)
        match numberFound negative text with
        | .error unread => .before .numberOutOfRange (text.drop (text.length - unread) ++ rest')
        | .ok found => .before (.invalidType found expected) rest'
    if c = 'n' then wordFault ['u', 'l', 'l'] .null
    else if c = 't' then wordFault ['r', 'u', 'e'] (.boolean true)
    else if c = 'f' then wordFault ['a', 'l', 's', 'e'] (.boolean false)
    else if c = '-' then numberFault true rest
    else if isDigit c then numberFault false (c :: rest)
    else if c = '"' then
      match readString rest with
      | .error e => e
      | .ok (s, rest') => .before (.invalidType (.string (String.ofList s)) expected) rest'
    else if c = '[' then .before (.invalidType .sequence expected) (c :: rest)
    else if c = '\x7b' then .before (.invalidType .map expected) (c :: rest)
    else .after .expectedValue (c :: rest)

/-! ## Field values -/

/-- Read a string. -/
def readStringValue : Reader String := fun cs =>
  match skipBlank cs with
  | [] => .error (.before .endInValue [])
  | c :: rest =>
    if c = '"' then (readString rest).map fun (s, rest') => (String.ofList s, rest')
    else .error (wrongType "a string" (c :: rest))

theorem readString_map_shorter {cs rest : List Char} {s : String}
    (h : (readString cs).map (fun p => (String.ofList p.1, p.2)) = .ok (s, rest)) :
    rest.length < cs.length := by
  cases hs : readString cs with
  | error e => rw [hs] at h; exact absurd h (by simp [Except.map])
  | ok p =>
    obtain ⟨t, r⟩ := p
    rw [hs] at h
    simp only [Except.map, Except.ok.injEq, Prod.mk.injEq] at h
    exact h.2 ▸ readString_shorter hs

theorem readStringValue_shorter {cs rest : List Char} {s : String}
    (h : readStringValue cs = .ok (s, rest)) : rest.length < cs.length := by
  have hle := skipBlank_length_le cs
  unfold readStringValue at h
  split at h
  · exact absurd h (by simp)
  · next heq =>
    simp only [heq, List.length_cons] at hle
    split at h
    · have := readString_map_shorter h
      omega
    · exact absurd h (by simp)

/-- Read the end of a tag that is written as an object, after its key: a null and the closing
brace. -/
def readTagEnd (cs : List Char) : Except Fault (List Char) :=
  match readColon cs with
  | .error e => .error e
  | .ok (_, rest) =>
    match skipBlank rest with
    | [] => .error (.before .endInValue [])
    | c :: rest =>
      if c = 'n' then
        match readWord ['u', 'l', 'l'] rest with
        | .error e => .error e
        | .ok (_, rest) =>
          match skipBlank rest with
          | [] => .error (.before .endInObject [])
          | c :: rest =>
            if c = '\x7d' then .ok rest else .error (.before .expectedValue (c :: rest))
      else .error (wrongType "unit" (c :: rest))

theorem readTagEnd_shorter {cs rest : List Char} (h : readTagEnd cs = .ok rest) :
    rest.length < cs.length := by
  unfold readTagEnd at h
  split at h
  · exact absurd h (by simp)
  · next r1 hc =>
    have := readColon_shorter hc
    have h1 := skipBlank_length_le r1
    split at h
    · exact absurd h (by simp)
    · next r2 heq =>
      simp only [heq, List.length_cons] at h1
      split at h
      · split at h
        · exact absurd h (by simp)
        · next r3 hw =>
          have hl := congrArg List.length (readWord_eq_ok hw)
          have h2 := skipBlank_length_le r3
          simp only [List.length_append, List.length_cons] at hl
          split at h
          · exact absurd h (by simp)
          · next r4 heq' =>
            simp only [heq', List.length_cons] at h2
            split at h
            · cases h; omega
            · exact absurd h (by simp)
      · exact absurd h (by simp)

/-- Read the tag of a kind: a string, or an object whose only member has the tag for its key and
a null for its value. -/
def readTag : Reader String := fun cs =>
  match skipBlank cs with
  | [] => .error (.before .endInValue [])
  | c :: rest =>
    if c = '"' then (readString rest).map fun (s, rest') => (String.ofList s, rest')
    else if c = '\x7b' then
      match skipBlank rest with
      | [] => .error (.before .endInObject [])
      | k :: rest' =>
        if k = '\x7d' then .error (.after .expectedValue (k :: rest'))
        else if k = '"' then
          match readString rest' with
          | .error e => .error e
          | .ok (s, rest'') => (readTagEnd rest'').map fun left => (String.ofList s, left)
        else .error (.after .keyMustBeString (k :: rest'))
    else .error (.after .expectedValue (c :: rest))

theorem readTag_shorter {cs rest : List Char} {s : String} (h : readTag cs = .ok (s, rest)) :
    rest.length < cs.length := by
  have hle := skipBlank_length_le cs
  unfold readTag at h
  split at h
  · exact absurd h (by simp)
  · next r1 heq =>
    simp only [heq, List.length_cons] at hle
    split at h
    · have := readString_map_shorter h
      omega
    · split at h
      · have h1 := skipBlank_length_le r1
        split at h
        · exact absurd h (by simp)
        · next r2 heq' =>
          simp only [heq', List.length_cons] at h1
          split at h
          · exact absurd h (by simp)
          · split at h
            · split at h
              · exact absurd h (by simp)
              · next r3 hs =>
                have := readString_shorter hs
                cases he : readTagEnd r3 with
                | error e => rw [he] at h; exact absurd h (by simp [Except.map])
                | ok left =>
                  rw [he] at h
                  simp only [Except.map, Except.ok.injEq, Prod.mk.injEq] at h
                  have := readTagEnd_shorter he
                  rw [h.2] at this
                  omega
            · exact absurd h (by simp)
      · exact absurd h (by simp)

/-! ## Lists -/

/-- Does a list have another entry?  `first` says that none has been read.  The comma before the
entry is consumed, the bracket after the last one is not. -/
def moreEntries (first : Bool) : Reader Bool := fun cs =>
  match skipBlank cs with
  | [] => .error (.before .endInList [])
  | c :: rest =>
    if c = ']' then .ok (false, c :: rest)
    else if first then .ok (true, c :: rest)
    else if c = ',' then
      match skipBlank rest with
      | [] => .error (.before .endInValue [])
      | d :: rest' =>
        if d = ']' then .error (.after .trailingComma (d :: rest')) else .ok (true, d :: rest')
    else .error (.after .expectedCommaOrBracket (c :: rest))

theorem moreEntries_length_le {first more : Bool} {cs rest : List Char}
    (h : moreEntries first cs = .ok (more, rest)) : rest.length ≤ cs.length := by
  have hle := skipBlank_length_le cs
  unfold moreEntries at h
  split at h
  · exact absurd h (by simp)
  · next r1 heq =>
    rw [heq] at hle
    split at h
    · cases h; exact hle
    · split at h
      · cases h; exact hle
      · split at h
        · have h1 := skipBlank_length_le r1
          split at h
          · exact absurd h (by simp)
          · next heq' =>
            rw [heq'] at h1
            split at h
            · exact absurd h (by simp)
            · cases h
              simp only [List.length_cons] at *
              omega
        · exact absurd h (by simp)

/-- Read the bracket that ends a list. -/
def endList (cs : List Char) : Except Fault (List Char) :=
  match skipBlank cs with
  | [] => .error (.before .endInList [])
  | c :: rest =>
    if c = ']' then .ok rest
    else if c = ',' then
      match skipBlank rest with
      | [] => .error (.before .trailingCharacters [])
      | d :: rest' =>
        .error (.after (if d = ']' then .trailingComma else .trailingCharacters) (d :: rest'))
    else .error (.after .trailingCharacters (c :: rest))

theorem endList_shorter {cs rest : List Char} (h : endList cs = .ok rest) :
    rest.length < cs.length := by
  have hle := skipBlank_length_le cs
  unfold endList at h
  split at h
  · exact absurd h (by simp)
  · next heq =>
    simp only [heq, List.length_cons] at hle
    split at h
    · cases h; omega
    · split at h
      · split at h <;> exact absurd h (by simp)
      · exact absurd h (by simp)

/-- Read the tags of a list and the bracket that ends it. -/
def readTagEntries (first : Bool) (cs : List Char) : Except Fault (List String × List Char) :=
  match h : moreEntries first cs with
  | .error e => .error e
  | .ok (false, rest) => (endList rest).map fun left => ([], left)
  | .ok (true, rest) =>
    have := moreEntries_length_le h
    match h' : readTag rest with
    | .error e => .error e
    | .ok (tag, rest') =>
      have := readTag_shorter h'
      match readTagEntries false rest' with
      | .error e => .error e
      | .ok (tags, left) => .ok (tag :: tags, left)
termination_by cs.length

/-- Read a list of tags. -/
def readTags : Reader (List String) := fun cs =>
  match skipBlank cs with
  | [] => .error (.before .endInValue [])
  | c :: rest =>
    if c = '[' then readTagEntries true rest else .error (wrongType "a sequence" (c :: rest))

theorem readTagEntries_shorter {first : Bool} {cs rest : List Char} {tags : List String}
    (h : readTagEntries first cs = .ok (tags, rest)) : rest.length < cs.length := by
  fun_induction readTagEntries first cs generalizing tags with
  | case1 | case3 | case4 => exact absurd h (by simp)
  | case2 _ _ r hm =>
    have := moreEntries_length_le hm
    cases he : endList r with
    | error e => rw [he] at h; exact absurd h (by simp [Except.map])
    | ok left =>
      rw [he] at h
      simp only [Except.map, Except.ok.injEq, Prod.mk.injEq] at h
      have := endList_shorter he
      rw [h.2] at this
      omega
  | case5 =>
    rename_i hr ih
    cases h
    have := ih hr
    omega

theorem readTags_shorter {cs rest : List Char} {tags : List String}
    (h : readTags cs = .ok (tags, rest)) : rest.length < cs.length := by
  have hle := skipBlank_length_le cs
  unfold readTags at h
  split at h
  · exact absurd h (by simp)
  · next heq =>
    simp only [heq, List.length_cons] at hle
    split at h
    · have := readTagEntries_shorter h
      omega
    · exact absurd h (by simp)

/-! ## Records -/

/-- A field of the record type `σ`: its name, and how its value is read into a record. -/
structure Field (σ : Type) where
  name : String
  read : σ → Reader σ
  shorter : ∀ {s s' : σ} {cs rest : List Char}, read s cs = .ok (s', rest) →
    rest.length < cs.length

/-- The fields of a record type. -/
structure Schema (σ : Type) where
  /-- What the record is called in messages. -/
  title : String
  fields : List (Field σ)
  /-- Are members of other names refused? -/
  closed : Bool

variable {σ : Type}

/-- A field whose value is read by `r` and stored by `store`. -/
def Field.of {α : Type} (name : String) (r : Reader α) (store : σ → α → σ)
    (shorter : ∀ {a : α} {cs rest : List Char}, r cs = .ok (a, rest) → rest.length < cs.length) :
    Field σ where
  name := name
  read s cs := (r cs).map fun (a, rest) => (store s a, rest)
  shorter {s s' cs rest} h := by
    cases hr : r cs with
    | error e => rw [hr] at h; exact absurd h (by simp [Except.map])
    | ok p =>
      obtain ⟨a, left⟩ := p
      rw [hr] at h
      simp only [Except.map, Except.ok.injEq, Prod.mk.injEq] at h
      exact h.2 ▸ shorter hr

/-- Read fields by position, as far as the list goes. -/
def readPositions (first : Bool) : List (Field σ) → σ → Reader σ
  | [], s, cs => .ok (s, cs)
  | f :: fs, s, cs =>
    match moreEntries first cs with
    | .error e => .error e
    | .ok (false, rest) => .ok (s, rest)
    | .ok (true, rest) =>
      match f.read s rest with
      | .error e => .error e
      | .ok (s', rest') => readPositions false fs s' rest'

/-- The start of the key of the next member, when the object has one more, without its comma.
`first` says that no member has been read. -/
def nextKey (first : Bool) (c : Char) (rest : List Char) : Except Fault (List Char) :=
  if first then .ok (c :: rest)
  else if c = ',' then
    match skipBlank rest with
    | [] => .error (.before .endInValue [])
    | d :: rest' =>
      if d = '\x7d' then .error (.after .trailingComma (d :: rest')) else .ok (d :: rest')
  else .error (.after .expectedCommaOrBrace (c :: rest))

theorem nextKey_length_le {first : Bool} {c : Char} {rest key : List Char}
    (h : nextKey first c rest = .ok key) : key.length ≤ rest.length + 1 := by
  have hle := skipBlank_length_le rest
  unfold nextKey at h
  split at h
  · cases h; simp
  · split at h
    · split at h
      · exact absurd h (by simp)
      · next heq =>
        rw [heq] at hle
        split at h
        · exact absurd h (by simp)
        · cases h; omega
    · exact absurd h (by simp)

/-- Read the key of a member, which starts at a quote. -/
def readKey : Reader String
  | [] => .error (.before .keyMustBeString [])
  | c :: rest =>
    if c = '"' then (readString rest).map fun (s, rest') => (String.ofList s, rest')
    else .error (.after .keyMustBeString (c :: rest))

theorem readKey_shorter {cs rest : List Char} {s : String} (h : readKey cs = .ok (s, rest)) :
    rest.length < cs.length := by
  unfold readKey at h
  split at h
  · exact absurd h (by simp)
  · split at h
    · have := readString_map_shorter h
      simp only [List.length_cons]
      omega
    · exact absurd h (by simp)

/-- Where a member is refused for its key: after the closing brace if the object ends there, else
at what comes next. -/
def afterBrace (cs : List Char) : List Char :=
  match skipBlank cs with
  | [] => []
  | c :: rest => if c = '\x7d' then rest else c :: rest

/-- May a member of this key stand here?  A field may be given once; in a closed record there are
no other members. -/
def keyFault? (schema : Schema σ) (seen : List String) (key : String) : Option Cause :=
  if key ∈ seen then some (.duplicateField key)
  else if schema.closed ∧ key ∉ schema.fields.map Field.name then
    some (.unknownField key (schema.fields.map Field.name))
  else none

/-- Read the value of the member `key` into the record; the value of a member that is no field is
passed over. -/
def readMember (schema : Schema σ) (key : String) (s : σ) : Reader σ := fun cs =>
  match schema.fields.find? fun f => f.name = key with
  | some f => f.read s cs
  | none => (skipValue cs).map fun (_, rest) => (s, rest)

theorem readMember_shorter {schema : Schema σ} {key : String} {s s' : σ} {cs rest : List Char}
    (h : readMember schema key s cs = .ok (s', rest)) : rest.length < cs.length := by
  unfold readMember at h
  split at h
  · next f _ => exact f.shorter h
  · cases hv : skipValue cs with
    | error e => rw [hv] at h; exact absurd h (by simp [Except.map])
    | ok p =>
      obtain ⟨u, left⟩ := p
      rw [hv] at h
      simp only [Except.map, Except.ok.injEq, Prod.mk.injEq] at h
      exact h.2 ▸ skipValue_shorter hv

/-- Read the members of an object and the brace that ends it.  `seen` are the fields given so
far. -/
def readMembers (schema : Schema σ) (first : Bool) (seen : List String) (s : σ) (cs : List Char) :
    Except Fault (σ × List Char) :=
  match hb : skipBlank cs with
  | [] => .error (.before .endInObject [])
  | c :: rest =>
    have : (c :: rest).length ≤ cs.length := hb ▸ skipBlank_length_le cs
    if c = '\x7d' then .ok (s, rest)
    else match hn : nextKey first c rest with
      | .error e => .error e
      | .ok start =>
        have := nextKey_length_le hn
        match hk : readKey start with
        | .error e => .error e
        | .ok (key, rest) =>
          have := readKey_shorter hk
          match keyFault? schema seen key with
          | some cause => .error (.before cause (afterBrace rest))
          | none =>
            match hc : readColon rest with
            | .error e => .error e
            | .ok (_, rest) =>
              have := readColon_shorter hc
              match hm : readMember schema key s rest with
              | .error e => .error e
              | .ok (s', rest) =>
                have := readMember_shorter hm
                let seen := if key ∈ schema.fields.map Field.name then key :: seen else seen
                readMembers schema false seen s' rest
termination_by cs.length
decreasing_by
  simp only [List.length_cons] at *
  omega

/-- Read a record, whose fields have the values of `s` where they are missing. -/
def readRecord (schema : Schema σ) (s : σ) : Reader σ := fun cs =>
  match skipBlank cs with
  | [] => .error (.before .endInValue [])
  | c :: rest =>
    if c = '[' then
      match readPositions true schema.fields s rest with
      | .error e => .error e
      | .ok (s', rest') => (endList rest').map fun left => (s', left)
    else if c = '\x7b' then readMembers schema true [] s rest
    else .error (wrongType ("struct " ++ schema.title) (c :: rest))

/-! ## Whole texts -/

/-- Read a whole text, in which nothing but blanks may follow the value. -/
def readAll {α : Type} (r : Reader α) (cs : List Char) : Except Fault α :=
  match r cs with
  | .error e => .error e
  | .ok (a, rest) =>
    match skipBlank rest with
    | [] => .ok a
    | c :: left => .error (.after .trailingCharacters (c :: left))

theorem readAll_eq_ok_iff {α : Type} {r : Reader α} {cs : List Char} {a : α} :
    readAll r cs = .ok a ↔ ∃ rest, r cs = .ok (a, rest) ∧ skipBlank rest = [] := by
  unfold readAll
  cases r cs with
  | error e => simp
  | ok p =>
    obtain ⟨b, rest⟩ := p
    cases hb : skipBlank rest with
    | nil =>
      simp only [hb, Except.ok.injEq, Prod.mk.injEq]
      exact ⟨fun h => ⟨rest, ⟨h, rfl⟩, hb⟩, fun ⟨_, ⟨h, _⟩, _⟩ => h⟩
    | cons c left => simp [hb]

end FractalShader.Json
