import FractalShader.Document
import FractalShader.Proofs.Json.Shape

/-!
# What the members of a document say

A description document may be written by another tool: its members come in any order, its
strings are spelled in any way, and it may hold members and tags that this library does
not know.  A tag stands for the kind of that name, and for `unknown` where there is none;
a member of another name is passed over, whatever its value is.

* `Tagged` — the kind that a tag stands for;
* `Document.Writes` — the members of a document, and what each of them says;
* `Document.decode_members` — which such documents are read, and as what.
-/

namespace FractalShader

open Json

/-! ## Tags -/

/-- What a tag stands for: the kind of that name, or `other` where no kind has it. -/
def Tagged {κ : Type} (name : κ → String) (other : κ) (tag : String) (k : κ) : Prop :=
  name k = tag ∨ k = other ∧ ∀ k', name k' ≠ tag

/-- Tags are read as what they stand for: a kind is read back from its name, and what is read as
another kind than `other` is the name of that kind. -/
theorem tagged_iff {κ : Type} {name : κ → String} {other k : κ} {ofTag : String → κ} {tag : String}
    (hname : ∀ k, ofTag (name k) = k) (htag : ∀ tag, ofTag tag ≠ other → name (ofTag tag) = tag) :
    Tagged name other tag k ↔ k = ofTag tag := by
  constructor
  · rintro (rfl | ⟨rfl, hnone⟩)
    · exact (hname k).symm
    · by_contra hne
      exact hnone _ (htag tag fun heq => hne heq.symm)
  · rintro rfl
    by_cases hother : ofTag tag = other
    · by_cases hsome : ∃ k', name k' = tag
      · obtain ⟨k', rfl⟩ := hsome
        exact .inl (congrArg name (hname k'))
      · exact .inr ⟨hother, not_exists.mp hsome⟩
    · exact .inl (htag tag hother)

theorem FoldKind.tagged_iff {tag : String} {k : FoldKind} :
    Tagged name unknown tag k ↔ k = ofTag tag :=
  FractalShader.tagged_iff (fun k => tag_eq_name k ▸ ofTag_tag k)
    fun _ h => (tag_eq_name _).symm.trans (tag_ofTag h)

theorem SdfKind.tagged_iff {tag : String} {k : SdfKind} :
    Tagged name unknown tag k ↔ k = ofTag tag :=
  FractalShader.tagged_iff (fun k => tag_eq_name k ▸ ofTag_tag k)
    fun _ h => (tag_eq_name _).symm.trans (tag_ofTag h)

namespace Document

/-! ## Members -/

/-- What the value of a field makes of a document. -/
inductive Form : String → List Char → Document → Document → Prop where
  | chain {v : List Char} {tags : List String} {d : Document} (h : IsTags v tags) :
      Form "fractalConfig" v d { d with operations := tags.map FoldKind.ofTag }
  | terminal {v : List Char} {tag : String} {d : Document} (h : IsTag v tag) :
      Form "lastSDF" v d { d with terminal := SdfKind.ofTag tag }

theorem form_chain_iff {v : List Char} {d d' : Document} : Form "fractalConfig" v d d' ↔
    ∃ tags, IsTags v tags ∧ d' = { d with operations := tags.map FoldKind.ofTag } := by
  constructor
  · generalize hname : "fractalConfig" = name
    intro h
    cases h with
    | chain h => exact ⟨_, h, rfl⟩
    | terminal => exact absurd hname (by decide)
  · rintro ⟨tags, h, rfl⟩
    exact .chain h

theorem form_terminal_iff {v : List Char} {d d' : Document} : Form "lastSDF" v d d' ↔
    ∃ tag, IsTag v tag ∧ d' = { d with terminal := SdfKind.ofTag tag } := by
  constructor
  · generalize hname : "lastSDF" = name
    intro h
    cases h with
    | chain => exact absurd hname (by decide)
    | terminal h => exact ⟨_, h, rfl⟩
  · rintro ⟨tag, h, rfl⟩
    exact .terminal h

theorem reads_schema : Reads schema.fields Form := by
  refine List.forall_mem_cons.mpr ⟨fun d => ?_, List.forall_mem_singleton.mpr fun d => ?_⟩
  · show Recognises _ fun v d' => Form "fractalConfig" v d d'
    simp only [form_chain_iff]
    exact recognises_tags.field _ _ _ d
  · show Recognises _ fun v d' => Form "lastSDF" v d d'
    simp only [form_terminal_iff]
    exact recognises_tag.field _ _ _ d

theorem decode_object_iff {text : String} {ms : List (Option String × List Char)} {d : Document}
    (htext : ObjectText ms text.toList) :
    decode text = .ok d ↔ schema.Accepts Form [] default ms d :=
  readAll_object_iff reads_schema htext

/-! ## What the members say -/

/-- What a member of a document says. -/
inductive Said where
  /-- The fold chain, by its tags. -/
  | chain (tags : List String)
  | terminal (tag : String)
  /-- Something else, under another name or under a key that spells no name. -/
  | further (name : Option String)

/-- How it is written: tags are strings, and something else may be any value. -/
inductive Writes : Option String × List Char → Said → Prop where
  | chain {vs : List (List Char)} {es : List Char} {tags : List String} (h : Entries Item vs es)
      (htags : List.Forall₂ Spells vs tags) :
      Writes (some "fractalConfig", '[' :: (es ++ [']'])) (.chain tags)
  | terminal {v : List Char} {tag : String} (h : Spells v tag) :
      Writes (some "lastSDF", v) (.terminal tag)
  | further {name : Option String} {v : List Char} (hchain : name ≠ some "fractalConfig")
      (hterminal : name ≠ some "lastSDF") : Writes (name, v) (.further name)

/-- The chains that are given, in order. -/
def chains (said : List Said) : List (List String) :=
  said.filterMap fun
    | .chain tags => some tags
    | _ => none

/-- The terminal tags that are given, in order. -/
def terminals (said : List Said) : List String :=
  said.filterMap fun
    | .terminal tag => some tag
    | _ => none

/-- The document of which this is said.  What is missing is as in an empty document. -/
structure Describes (said : List Said) (d : Document) : Prop where
  operations : List.Forall₂ (Tagged FoldKind.name .unknown) ((chains said).head?.getD [])
    d.operations
  terminal : ∀ tag ∈ (terminals said).head?, Tagged SdfKind.name .unknown tag d.terminal
  missing : terminals said = [] → d.terminal = .mandelbrot

/-- What is said, on top of another document. -/
def told (d : Document) (said : List Said) : Document where
  operations := ((chains said).head?.map fun tags => tags.map FoldKind.ofTag).getD d.operations
  terminal := ((terminals said).head?.map SdfKind.ofTag).getD d.terminal

theorem describes_told (said : List Said) : Describes said (told default said) where
  operations := by
    have htags : ∀ tags : List String,
        List.Forall₂ (Tagged FoldKind.name .unknown) tags (tags.map FoldKind.ofTag) := by
      intro tags
      rw [List.forall₂_map_right_iff, List.forall₂_same]
      exact fun tag _ => FoldKind.tagged_iff.mpr rfl
    cases hchains : chains said with
    | nil => simp [told, hchains, default]
    | cons tags later => simpa [told, hchains] using htags tags
  terminal := by
    intro tag htag
    rw [Option.mem_def] at htag
    simp [told, htag, SdfKind.tagged_iff]
  missing := by
    intro hnone
    simp [told, hnone]
    rfl

section Accepts

variable {v : List Char} {ms : List (Option String × List Char)} {seen : List String}
  {d d' : Document}

theorem accepts_chain_iff {tags : List String} (h : IsTags v tags) :
    schema.Accepts Form seen d ((some "fractalConfig", v) :: ms) d' ↔ "fractalConfig" ∉ seen ∧
      schema.Accepts Form ("fractalConfig" :: seen)
        { d with operations := tags.map FoldKind.ofTag } ms d' := by
  have hname : "fractalConfig" ∈ schema.names := by decide
  rw [Schema.accepts_field_iff hname]
  simp only [form_chain_iff, recognises_tags.exists_iff h, exists_eq_left]

theorem accepts_terminal_iff {tag : String} (h : IsTag v tag) :
    schema.Accepts Form seen d ((some "lastSDF", v) :: ms) d' ↔ "lastSDF" ∉ seen ∧
      schema.Accepts Form ("lastSDF" :: seen) { d with terminal := SdfKind.ofTag tag } ms d' := by
  have hname : "lastSDF" ∈ schema.names := by decide
  rw [Schema.accepts_field_iff hname]
  simp only [form_terminal_iff, recognises_tag.exists_iff h, exists_eq_left]

/-- A field is given once: here, unless it was given before. -/
def Once {α : Type} (name : String) (seen : List String) (given : List α) : Prop :=
  (name ∈ seen → given = []) ∧ given.length ≤ 1

theorem once_cons_iff {α : Type} {name : String} {a : α} {given : List α} :
    Once name seen (a :: given) ↔ name ∉ seen ∧ Once name (name :: seen) given := by
  constructor
  · rintro ⟨hseen, hone⟩
    obtain rfl : given = [] := List.length_eq_zero_iff.mp (by simpa using hone)
    exact ⟨fun h => absurd (hseen h) (by simp), fun _ => rfl, by simp⟩
  · rintro ⟨hseen, hnone, -⟩
    rw [hnone List.mem_cons_self]
    exact ⟨fun h => absurd h hseen, by simp⟩

theorem once_skip_iff {α : Type} {name other : String} {given : List α} (h : name ≠ other) :
    Once name (other :: seen) given ↔ Once name seen given := by
  simp [Once, h]

theorem Once.eq_nil {α : Type} {name : String} {given : List α}
    (h : Once name (name :: seen) given) : given = [] :=
  h.1 List.mem_cons_self

/-- Members make the document that they tell of, each field being given once. -/
theorem accepts_said {said : List Said} (h : List.Forall₂ Writes ms said) :
    schema.Accepts Form seen d ms d' ↔
      Once "fractalConfig" seen (chains said) ∧ Once "lastSDF" seen (terminals said) ∧
      .further none ∉ said ∧ d' = told d said := by
  induction h generalizing seen d with
  | nil =>
    rw [Schema.accepts_nil_iff]
    simp [Once, chains, terminals, told]
  | @cons m what ms said hm _ ih =>
    cases hm with
    | @chain vs es tags hes htags =>
      have hvalue : IsTags ('[' :: (es ++ [']'])) tags := ⟨hes, htags.imp fun _ _ h => .string h⟩
      have hchains : chains (.chain tags :: said) = tags :: chains said := rfl
      have hterminals : terminals (.chain tags :: said) = terminals said := rfl
      have hskip : Once "lastSDF" ("fractalConfig" :: seen) (terminals said) ↔
          Once "lastSDF" seen (terminals said) := once_skip_iff (by decide)
      rw [accepts_chain_iff hvalue, ih, hchains, hterminals, once_cons_iff, hskip, and_assoc]
      refine and_congr_right fun _ => and_congr_right fun honce => and_congr_right fun _ => ?_
      simp [told, hchains, hterminals, honce.eq_nil]
    | @terminal v tag hv =>
      have hchains : chains (.terminal tag :: said) = chains said := rfl
      have hterminals : terminals (.terminal tag :: said) = tag :: terminals said := rfl
      have hskip : Once "fractalConfig" ("lastSDF" :: seen) (chains said) ↔
          Once "fractalConfig" seen (chains said) := once_skip_iff (by decide)
      rw [accepts_terminal_iff (.string hv), ih, hchains, hterminals, once_cons_iff, hskip,
        and_left_comm, and_assoc]
      refine and_congr_right fun _ => and_congr_right fun _ => and_congr_right fun honce => ?_
      simp [told, hchains, hterminals, honce.eq_nil]
    | @further name v hchain hterminal =>
      cases name with
      | none => simp [Schema.not_accepts_none]
      | some name =>
        have hname : name ∉ schema.names := by
          simp only [Schema.names, schema, Field.of, List.map_cons, List.map_nil, List.mem_cons,
            List.not_mem_nil, or_false]
          rintro (rfl | rfl)
          · exact hchain rfl
          · exact hterminal rfl
        rw [Schema.accepts_other_iff hname, ih]
        simp [schema, chains, terminals, told]

end Accepts

/-- A document is read when it gives each field once at most and all its members have names, and
then it is what they say. -/
theorem decode_members {text : String} {ms : List (Option String × List Char)} {said : List Said}
    (htext : ObjectText ms text.toList) (hsaid : List.Forall₂ Writes ms said) :
    ((∃ d, decode text = .ok d) ↔
      (chains said).length ≤ 1 ∧ (terminals said).length ≤ 1 ∧ .further none ∉ said) ∧
    ∀ d, decode text = .ok d → Describes said d := by
  simp only [decode_object_iff htext, accepts_said hsaid]
  constructor
  · constructor
    · rintro ⟨d, ⟨-, hchains⟩, ⟨-, hterminals⟩, hnamed, -⟩
      exact ⟨hchains, hterminals, hnamed⟩
    · rintro ⟨hchains, hterminals, hnamed⟩
      exact ⟨_, ⟨by simp, hchains⟩, ⟨by simp, hterminals⟩, hnamed, rfl⟩
  · rintro d ⟨-, -, -, rfl⟩
    exact describes_told said

/-- A document of another tool: a member of another name, a terminal tag that is spelled with an
escape, and a chain with an unknown tag. -/
def foreign : String :=
  "\x7b \"note\":[-1],\"lastSDF\":\"Jul\\u0069a\", \"fractalConfig\":[\"Twist\"]\x7d"

theorem decode_members_foreign : ∃ ms, ObjectText ms foreign.toList ∧
    List.Forall₂ Writes ms [.further (some "note"), .terminal "Julia", .chain ["Twist"]] ∧
    decode foreign = .ok ⟨[.unknown], .julia⟩ := by
  have hdigits : Digits ['1'] := ⟨by decide, List.forall_mem_singleton.mpr rfl⟩
  have hone : IsNumber ['-', '1'] :=
    .inr ⟨['1'], ⟨['1'], [], [], .digits (by decide) hdigits, .absent, .absent, rfl⟩, rfl⟩
  have hnote : IsValue "[-1]".toList :=
    .list (.some (.mk blanks_nil) (.done blanks_nil)) (List.forall_mem_singleton.mpr (.number hone))
  have hunit : HexUnit '0' '0' '6' '9' 'i'.toNat :=
    .mk (i := 0) (j := 0) (k := 6) (l := 9) (by decide) (by decide) (by decide) (by decide)
  have hjulia : Spells "\"Jul\\u0069a\"".toList "Julia" :=
    ⟨"Jul\\u0069a".toList, _, .plain (by decide) (by decide) (by decide) <|
      .plain (by decide) (by decide) (by decide) <| .plain (by decide) (by decide) (by decide) <|
      .code hunit <| .plain (by decide) (by decide) (by decide) .nil,
      .char <| .char <| .char <| .single <| .char .nil, rfl⟩
  have htwist : Entries Item [quote "Twist"] (quote "Twist" ++ []) :=
    .some (.mk (w := []) blanks_nil) (.done blanks_nil)
  have htags : List.Forall₂ Spells [quote "Twist"] ["Twist"] := .cons (spells_quote _) .nil
  have hchain : IsTags "[\"Twist\"]".toList ["Twist"] := ⟨htwist, htags.imp fun _ _ h => .string h⟩
  have hwrites : List.Forall₂ Writes [(some "note", "[-1]".toList),
      (some "lastSDF", "\"Jul\\u0069a\"".toList), (some "fractalConfig", "[\"Twist\"]".toList)]
      [.further (some "note"), .terminal "Julia", .chain ["Twist"]] :=
    .cons (.further (by decide) (by decide)) <| .cons (.terminal hjulia) <|
      .cons (.chain htwist htags) .nil
  have htext : ObjectText _ foreign.toList :=
    ⟨List.forall_mem_cons.mpr ⟨hnote, List.forall_mem_cons.mpr ⟨hjulia.isValue.1,
        List.forall_mem_singleton.mpr (recognises_tags.value hchain).1⟩⟩,
      [], _, [], blanks_nil,
      .some (member_quote blanks_space "note" "[-1]".toList) <|
        .more (w := []) blanks_nil (member_quote blanks_nil "lastSDF" "\"Jul\\u0069a\"".toList) <|
        .more (w := []) blanks_nil
          (member_quote blanks_space "fractalConfig" "[\"Twist\"]".toList) <|
        .done blanks_nil,
      blanks_nil, rfl⟩
  obtain ⟨hread, hdescribes⟩ := decode_members htext hwrites
  obtain ⟨⟨operations, terminal⟩, hd⟩ := hread.mpr ⟨by decide, by decide, by simp⟩
  obtain ⟨hoperations, hterminal, -⟩ := hdescribes _ hd
  obtain rfl : terminal = .julia := SdfKind.tagged_iff.mp (hterminal "Julia" rfl)
  have hfolds : List.Forall₂ (Tagged FoldKind.name .unknown) ["Twist"] operations := hoperations
  obtain _ | ⟨hfold, ⟨⟩⟩ := hfolds
  obtain rfl := FoldKind.tagged_iff.mp hfold
  exact ⟨_, htext, hwrites, hd⟩

/-- Half of a surrogate pair is well formed in a string, but it spells no name: a member under such
a key is refused, though no field asks for it. -/
theorem not_every_further_member_passed : ¬ ∀ (text : String)
    (ms : List (Option String × List Char)) (said : List Said), ObjectText ms text.toList →
      List.Forall₂ Writes ms said → (chains said).length ≤ 1 → (terminals said).length ≤ 1 →
      ∃ d, decode text = .ok d := by
  intro h
  have hunit : HexUnit 'd' '8' '0' '0' 0xD800 :=
    .mk (i := 13) (j := 8) (k := 0) (l := 0) (by decide) (by decide) (by decide) (by decide)
  have hnone : Names [.code 0xD800] none := by
    intro s hmeans
    generalize hn : 0xD800 = n at hmeans
    cases hmeans with
    | single =>
      rename_i c _ _
      have := (toNat_no_surrogate c).1
      rw [← hn] at this
      exact absurd this (by decide)
  have hmember : Member (none, ['n', 'u', 'l', 'l']) "\"\\ud800\":null".toList :=
    .mk (w := []) (v := _) blanks_nil (.code hunit .nil) hnone blanks_nil blanks_nil
  have htext : ObjectText [(none, ['n', 'u', 'l', 'l'])] "\x7b\"\\ud800\":null\x7d".toList :=
    ⟨by simpa using IsValue.null, [], _, [], blanks_nil, .some hmember (.done blanks_nil),
      blanks_nil, rfl⟩
  have hwrites : List.Forall₂ Writes [(none, ['n', 'u', 'l', 'l'])] [.further none] :=
    .cons (.further (by simp) (by simp)) .nil
  obtain ⟨d, hd⟩ := h _ _ _ htext hwrites (by simp [chains]) (by simp [terminals])
  exact Schema.not_accepts_none ((decode_object_iff htext).mp hd)

end Document

end FractalShader
