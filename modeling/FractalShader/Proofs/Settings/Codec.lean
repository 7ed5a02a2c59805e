import FractalShader.Settings.Load
import FractalShader.Proofs.Json.Shape
import FractalShader.Proofs.Store.Stored

/-!
# Settings files and what they give

A settings file gives any of five fields, in any order and with its strings spelled in any
way; what it does not give has its default.  A member of another name, and a field that is
given twice, make it no settings file.

* `Setting` — the five fields, their names and what they are worth;
* `Gives` — a member that gives a field;
* `decode_encode` — written settings are read back;
* `load_of_members` — which objects are settings, and which settings they are.
-/

namespace FractalShader.Settings

open Json FractalShader.Action

/-! ## Fields -/

/-- A field of the settings. -/
inductive Setting where
  | fragmentExt
  | documentExt
  | includeRoot
  | libraryInclude
  | driverInclude
  deriving DecidableEq

/-- The name of a field in a settings file. -/
def Setting.key : Setting → String
  | fragmentExt => "fragment_ext"
  | documentExt => "document_ext"
  | includeRoot => "include_prefix"
  | libraryInclude => "library_include"
  | driverInclude => "driver_include"

def get (s : Settings) : Setting → String
  | .fragmentExt => s.fragmentExt
  | .documentExt => s.documentExt
  | .includeRoot => s.includeRoot
  | .libraryInclude => s.libraryInclude
  | .driverInclude => s.driverInclude

def set (s : Settings) (f : Setting) (value : String) : Settings :=
  match f with
  | .fragmentExt => { s with fragmentExt := value }
  | .documentExt => { s with documentExt := value }
  | .includeRoot => { s with includeRoot := value }
  | .libraryInclude => { s with libraryInclude := value }
  | .driverInclude => { s with driverInclude := value }

variable {s s' : Settings} {f g : Setting} {value : String}

@[simp] theorem get_set : (s.set f value).get g = if g = f then value else s.get g := by
  cases f <;> cases g <;> rfl

theorem ext_get (h : ∀ f, s.get f = s'.get f) : s = s' := by
  cases s
  cases s'
  rw [Settings.mk.injEq]
  exact ⟨h .fragmentExt, h .documentExt, h .includeRoot, h .libraryInclude, h .driverInclude⟩

/-- The settings with these values. -/
def ofValues (value : Setting → String) : Settings :=
  ⟨value .fragmentExt, value .documentExt, value .includeRoot, value .libraryInclude,
    value .driverInclude⟩

theorem get_ofValues (value : Setting → String) : (ofValues value).get f = value f := by
  cases f <;> rfl

theorem Setting.key_inj : f.key = g.key ↔ f = g := by
  cases f <;> cases g <;> decide

theorem mem_names_iff {name : String} : name ∈ schema.names ↔ ∃ f, Setting.key f = name := by
  constructor
  · intro h
    simp only [Schema.names, schema, Field.of, List.map_cons, List.map_nil, List.mem_cons,
      List.not_mem_nil, or_false] at h
    rcases h with rfl | rfl | rfl | rfl | rfl
    · exact ⟨.fragmentExt, rfl⟩
    · exact ⟨.documentExt, rfl⟩
    · exact ⟨.includeRoot, rfl⟩
    · exact ⟨.libraryInclude, rfl⟩
    · exact ⟨.driverInclude, rfl⟩
  · rintro ⟨f, rfl⟩
    cases f <;> decide

/-! ## Members -/

/-- What the value of a field makes of settings. -/
inductive Form : String → List Char → Settings → Settings → Prop where
  | mk {f : Setting} {v : List Char} {value : String} {s : Settings} (h : Spells v value) :
      Form f.key v s (s.set f value)

variable {v : List Char}

theorem form_key_iff : Form f.key v s s' ↔ ∃ value, Spells v value ∧ s' = s.set f value := by
  constructor
  · generalize hkey : f.key = name
    rintro ⟨h⟩
    obtain rfl := Setting.key_inj.mp hkey
    exact ⟨_, h, rfl⟩
  · rintro ⟨value, h, rfl⟩
    exact .mk h

theorem reads_schema : Reads schema.fields Form := by
  have hfields : schema.fields =
      [Setting.fragmentExt, .documentExt, .includeRoot, .libraryInclude, .driverInclude].map
        fun f => Field.of f.key readStringValue (fun s value => s.set f value)
          readStringValue_shorter := rfl
  rw [hfields, Reads, List.forall_mem_map]
  intro f _ s
  show Recognises _ fun v s' => Form f.key v s s'
  simp only [form_key_iff]
  exact recognises_string.field _ _ _ s

theorem makes_schema : Makes schema.names Form fun _ v => ∃ value, Spells v value := by
  intro name hname v s
  obtain ⟨f, rfl⟩ := mem_names_iff.mp hname
  simp only [form_key_iff]
  exact ⟨fun ⟨_, value, h, _⟩ => ⟨value, h⟩, fun ⟨value, h⟩ => ⟨_, value, h, rfl⟩⟩

/-- A member that gives a field. -/
inductive Gives : Option String × List Char → Setting × String → Prop where
  | mk {f : Setting} {v : List Char} {value : String} (h : Spells v value) :
      Gives (some f.key, v) (f, value)

theorem accepts_gives_iff {ms : List (Option String × List Char)} {seen : List String}
    (h : Spells v value) : schema.Accepts Form seen s ((some f.key, v) :: ms) s' ↔
      f.key ∉ seen ∧ schema.Accepts Form (f.key :: seen) (s.set f value) ms s' := by
  rw [Schema.accepts_field_iff (mem_names_iff.mpr ⟨f, rfl⟩)]
  simp only [form_key_iff, recognises_string.exists_iff h, exists_eq_left]

theorem keys_fresh_iff {fs : List Setting} {seen : List String} :
    (∀ g ∈ fs, g.key ∉ f.key :: seen) ↔ f ∉ fs ∧ ∀ g ∈ fs, g.key ∉ seen := by
  simp only [List.mem_cons, not_or, Setting.key_inj]
  constructor
  · intro h
    exact ⟨fun hf => (h f hf).1 rfl, fun g hg => (h g hg).2⟩
  · rintro ⟨hf, h⟩ g hg
    refine ⟨?_, h g hg⟩
    rintro rfl
    exact hf hg

theorem lookup_set {given : List (Setting × String)} (hf : f ∉ given.map Prod.fst) (g : Setting) :
    (given.lookup g).getD ((s.set f value).get g)
      = (((f, value) :: given).lookup g).getD (s.get g) := by
  rw [List.lookup_cons, get_set]
  by_cases hg : g = f
  · subst hg
    have hnone : given.lookup g = none := by
      rw [List.lookup_eq_none_iff]
      intro p hp
      rw [bne_iff_ne]
      rintro rfl
      exact hf (List.mem_map_of_mem hp)
    simp [hnone]
  · rw [if_neg hg, beq_eq_false_iff_ne.mpr hg]

/-- Members give settings when they give each field once. -/
theorem accepts_given {ms : List (Option String × List Char)} {given : List (Setting × String)}
    {seen : List String} (h : List.Forall₂ Gives ms given) :
    schema.Accepts Form seen s ms s' ↔
      (given.map Prod.fst).Nodup ∧ (∀ f ∈ given.map Prod.fst, f.key ∉ seen) ∧
        ∀ f, s'.get f = (given.lookup f).getD (s.get f) := by
  induction h generalizing seen s with
  | nil =>
    rw [Schema.accepts_nil_iff]
    constructor
    · rintro rfl
      simp
    · rintro ⟨-, -, hget⟩
      exact ext_get hget
  | @cons m g ms given hm _ ih =>
    obtain ⟨hv⟩ := hm
    rename_i f v value
    rw [accepts_gives_iff hv, ih, keys_fresh_iff, List.map_cons, List.nodup_cons,
      List.forall_mem_cons]
    constructor
    · rintro ⟨hseen, hnodup, ⟨hf, hfresh⟩, hget⟩
      exact ⟨⟨hf, hnodup⟩, ⟨hseen, hfresh⟩, fun g => (hget g).trans (lookup_set hf g)⟩
    · rintro ⟨⟨hf, hnodup⟩, ⟨hseen, hfresh⟩, hget⟩
      exact ⟨hseen, hnodup, ⟨hf, hfresh⟩, fun g => (hget g).trans (lookup_set hf g).symm⟩

theorem decode_object_iff {text : String} {ms : List (Option String × List Char)}
    (htext : ObjectText ms text.toList) :
    decode text = .ok s ↔ schema.Accepts Form [] default ms s :=
  readAll_object_iff reads_schema htext

/-- An object that gives each field once, and nothing else, is settings; what it does not give has
its default. -/
theorem decode_given_iff {text : String} {ms : List (Option String × List Char)}
    {given : List (Setting × String)} (htext : ObjectText ms text.toList)
    (h : List.Forall₂ Gives ms given) : decode text = .ok s ↔
      (given.map Prod.fst).Nodup ∧ ∀ f, s.get f = (given.lookup f).getD (get default f) := by
  rw [decode_object_iff htext, accepts_given h]
  simp

/-- In settings every member gives a field, and no field is given twice. -/
theorem fits_of_decode {text : String} {ms : List (Option String × List Char)}
    (htext : ObjectText ms text.toList) (h : decode text = .ok s) :
    (∀ m ∈ ms, ∃ f, m.1 = some (Setting.key f)) ∧
      ∀ f, (ms.map Prod.fst).count (some (Setting.key f)) ≤ 1 := by
  obtain ⟨hnamed, honce, -⟩ :=
    (accepts_iff_fits makes_schema).mp ⟨s, (decode_object_iff htext).mp h⟩
  refine ⟨fun m hm => ?_, fun f => honce _ (mem_names_iff.mpr ⟨f, rfl⟩)⟩
  obtain ⟨name, hname, hfield⟩ := hnamed m hm
  obtain ⟨f, rfl⟩ := mem_names_iff.mp (hfield rfl)
  exact ⟨f, hname⟩

/-! ## Writing -/

/-- All five fields of some settings. -/
def fields (s : Settings) : List (Setting × String) :=
  [Setting.fragmentExt, .documentExt, .includeRoot, .libraryInclude, .driverInclude].map
    fun f => (f, s.get f)

theorem lookup_fields (s : Settings) (f : Setting) : s.fields.lookup f = some (s.get f) := by
  cases f <;> rfl

theorem objectText_encode (s : Settings) : ∃ ms, ObjectText ms s.encode.toList ∧
    List.Forall₂ Gives ms s.fields := by
  have hgives : ∀ f, Gives (some f.key, quote (s.get f)) (f, s.get f) :=
    fun f => .mk (spells_quote _)
  have hmember : ∀ f : Setting, Member (some f.key, quote (s.get f))
      (member f.key (quote (s.get f))) := fun f => member_quote blanks_nil _ _
  refine ⟨_, ⟨?_, [], _, [], blanks_nil, .some (hmember .fragmentExt) <|
    .more (w := []) blanks_nil (hmember .documentExt) <|
    .more (w := []) blanks_nil (hmember .includeRoot) <|
    .more (w := []) blanks_nil (hmember .libraryInclude) <|
    .more (w := []) blanks_nil (hmember .driverInclude) <| .done blanks_nil, blanks_nil, ?_⟩,
    .cons (hgives _) <| .cons (hgives _) <| .cons (hgives _) <| .cons (hgives _) <|
      .cons (hgives _) .nil⟩
  · simp [(spells_quote _).isValue.1]
  · rw [encode, String.toList_ofList]
    simp [compactObject, List.intercalate, Setting.key, get]

/-- Written settings are read back. -/
theorem decode_encode (s : Settings) : decode s.encode = .ok s := by
  obtain ⟨ms, htext, hgives⟩ := s.objectText_encode
  rw [decode_given_iff htext hgives]
  refine ⟨?_, fun f => by rw [lookup_fields, Option.getD_some]⟩
  show [Setting.fragmentExt, .documentExt, .includeRoot, .libraryInclude, .driverInclude].Nodup
  decide

/-! ## Loading -/

variable {p : Path} {d : Disk} {text : String}

/-- A file that can be read is settings or not by its text, and stays as it is. -/
theorem run_load (htext : d.readText p = .ok text) : (load p).run d =
    ⟨(decode text).mapError fun fault => .settings p.text (fault.message text.toList), d, []⟩ := by
  have hask : ((ask p (·.readText p)).run d).result = .ok text := by
    rw [run_ask, htext]
    rfl
  rw [load, run_bind_ok hask]
  cases decode text with
  | ok s => rfl
  | error fault => rfl

/-- **What a settings file gives, the settings have, and for the rest they have the defaults.**
For every file that can be read and holds an object: if its members give fields, each once, it
loads as the settings that have these values; if it has a member that gives no field, or gives one
twice, it does not load, and the error names the file.  Written settings are read back. -/
theorem load_of_members :
    (∀ s : Settings, decode s.encode = .ok s) ∧
    ∀ (p : Path) (d : Disk) (text : String) (ms : List (Option String × List Char)),
      d.readText p = .ok text → ObjectText ms text.toList →
      (∀ given : List (Setting × String), List.Forall₂ Gives ms given →
        (given.map Prod.fst).Nodup → ∃ s, (load p).Yields d s d ∧
          ∀ f, s.get f = (given.lookup f).getD (get default f)) ∧
      ((∃ m ∈ ms, ∀ f, m.1 ≠ some (Setting.key f)) ∨
        (∃ f, 2 ≤ (ms.map Prod.fst).count (some (Setting.key f))) →
          ∃ reason, (load p).Fails d (.settings p.text reason) d) := by
  refine ⟨decode_encode, fun p d text ms htext hobject => ⟨fun given hgives hnodup => ?_, ?_⟩⟩
  · have hdecode := (decode_given_iff hobject hgives).mpr ⟨hnodup, fun f => get_ofValues _⟩
    refine ⟨_, ⟨?_, ?_⟩, fun f => get_ofValues _⟩
    · rw [run_load htext, hdecode]
      rfl
    · rw [run_load htext]
  · intro hbad
    have hrefused : ∀ s, decode text ≠ .ok s := by
      intro s hs
      obtain ⟨hgiven, honce⟩ := fits_of_decode hobject hs
      rcases hbad with ⟨m, hm, hother⟩ | ⟨f, htwice⟩
      · obtain ⟨f, hf⟩ := hgiven m hm
        exact hother f hf
      · have := honce f
        omega
    cases hdecode : decode text with
    | ok s => exact absurd hdecode (hrefused s)
    | error fault =>
      refine ⟨fault.message text.toList, ?_, ?_⟩
      · rw [run_load htext, hdecode]
        rfl
      · rw [run_load htext]

/-- Two files: one that gives two fields, the first of them with an escape, and one that gives a
field twice. -/
def twoFiles : Disk :=
  ((Disk.empty ["scratch"]).put "partly.json" ["scratch"] (.file
    "\x7b\"include_prefix\":\"\\/Lib\", \"fragment_ext\":\"hlsl\"\x7d".toUTF8)).put "twice.json"
      ["scratch"] (.file "\x7b\"fragment_ext\":\"a\",\"fragment_ext\":\"b\"\x7d".toUTF8)

theorem load_of_members_twoFiles :
    (load ⟨"partly.json"⟩).Yields twoFiles
      ⟨"hlsl", "json", "/Lib", "SDFractalLibrary", "RayMarchingFractal"⟩ twoFiles ∧
    ∃ reason, (load ⟨"twice.json"⟩).Fails twoFiles (.settings "twice.json" reason) twoFiles := by
  have hlib : Spells "\"\\/Lib\"".toList "/Lib" :=
    ⟨"\\/Lib".toList, _, .short .slash <| .plain (by decide) (by decide) (by decide) <|
      .plain (by decide) (by decide) (by decide) <|
      .plain (by decide) (by decide) (by decide) .nil,
      .char <| .char <| .char <| .char .nil, rfl⟩
  have hpartly : ObjectText [(some "include_prefix", "\"\\/Lib\"".toList),
      (some "fragment_ext", quote "hlsl")]
      "\x7b\"include_prefix\":\"\\/Lib\", \"fragment_ext\":\"hlsl\"\x7d".toList :=
    ⟨List.forall_mem_cons.mpr ⟨hlib.isValue.1,
        List.forall_mem_singleton.mpr (spells_quote _).isValue.1⟩, [], _, [], blanks_nil,
      .some (member_quote blanks_nil "include_prefix" "\"\\/Lib\"".toList) <|
        .more (w := []) blanks_nil (member_quote blanks_space "fragment_ext" (quote "hlsl")) <|
        .done blanks_nil, blanks_nil, rfl⟩
  have htwice : ObjectText [(some "fragment_ext", quote "a"), (some "fragment_ext", quote "b")]
      "\x7b\"fragment_ext\":\"a\",\"fragment_ext\":\"b\"\x7d".toList :=
    ⟨by simp [(spells_quote _).isValue.1], [], _, [], blanks_nil,
      .some (member_quote blanks_nil "fragment_ext" (quote "a")) <|
        .more (w := []) blanks_nil (member_quote blanks_nil "fragment_ext" (quote "b")) <|
        .done blanks_nil, blanks_nil, rfl⟩
  have hgives : List.Forall₂ Gives [(some "include_prefix", "\"\\/Lib\"".toList),
      (some "fragment_ext", quote "hlsl")] [(.includeRoot, "/Lib"), (.fragmentExt, "hlsl")] :=
    .cons (.mk (f := .includeRoot) hlib) <|
      .cons (.mk (f := .fragmentExt) (spells_quote _)) .nil
  constructor
  · obtain ⟨s, hy, hget⟩ := (load_of_members.2 ⟨"partly.json"⟩ twoFiles _ _
      (Disk.readText_of_readFile rfl) hpartly).1 _ hgives (by decide)
    have hs : s = ⟨"hlsl", "json", "/Lib", "SDFractalLibrary", "RayMarchingFractal"⟩ :=
      ext_get fun f => (hget f).trans (by cases f <;> rfl)
    exact hs ▸ hy
  · exact (load_of_members.2 ⟨"twice.json"⟩ twoFiles _ _ (Disk.readText_of_readFile rfl) htwice).2
      (.inr ⟨.fragmentExt, by decide⟩)

end FractalShader.Settings
