import FractalShader.Proofs.Fragment.Injective
import FractalShader.Proofs.Store.Regeneration
import Mathlib.Data.List.Count

/-!
# Strict and lenient generation

The two ways to generate differ for unknown kinds only.  Lenient generation puts
the sentinel in the place of each and warns about it; strict generation is
refused.  A publication refuses unknown kinds before it generates, so it makes no
difference to it which of the two it asks for.

* `unknownIndices_eq_nil_iff` — a chain without unknown entries;
* `Marks` — every unknown kind has its warning and its sentinel, and nothing else
  has;
* `Store.publish_strict`, `Store.generated_of_publish` — what that means for
  publications;
* `Store.strict_agrees_with_lenient` — all of it.
-/

namespace FractalShader

open FractalShader.Action

namespace Fragment

variable {c : Config} {settings : Settings} {g : Generated}

/-! ## Sentinels -/

theorem unknownIndices_eq_nil_iff {ks : List FoldKind} :
    unknownIndices ks = [] ↔ .unknown ∉ ks := by
  rw [unknownIndices, List.filter_eq_nil_iff, List.mem_iff_getElem?, not_exists]
  constructor
  · intro h i hi
    obtain ⟨hlt, -⟩ := List.getElem?_eq_some_iff.mp hi
    exact h i (List.mem_range.mpr hlt) (decide_eq_true hi)
  · intro h i _ hi
    exact h i (of_decide_eq_true hi)

/-- The sentinel is returned for an unknown distance function only, and no other line looks so. -/
theorem returned_sentinel_iff {operations : List FoldKind} {terminal : SdfKind} :
    "\treturn Error;" ∈ referenceLines operations terminal ↔ terminal = .unknown := by
  have hchain : "\treturn Error;" ∉ operations.map chainLine := by
    intro h
    obtain ⟨k, -, hk⟩ := List.mem_map.mp h
    have hlist := congrArg String.toList hk
    rw [chainLine, String.toList_append] at hlist
    simp at hlist
  have hopening : "\treturn Error;" ∉ openingLines := by decide
  have hreturn : "\treturn Error;" = "\treturn " ++ returnedText terminal ++ ";" ↔
      terminal = .unknown := by
    constructor
    · intro h
      rw [show "\treturn Error;" = "\treturn " ++ "Error" ++ ";" from rfl, String.append_left_inj,
        String.append_right_inj] at h
      exact (returnedText_inj (j := .unknown) h).symm
    · rintro rfl
      rfl
  rw [referenceLines, List.mem_append, List.mem_append]
  simp only [hchain, hopening, false_or, closingLines, List.mem_cons, List.not_mem_nil, or_false,
    hreturn]
  simp

/-- Lenient generation `g` of `c` warns of each unknown kind, in order, by the index of the entry,
and has the sentinel in the places of these and in no others. -/
structure Marks (c : Config) (g : Generated) : Prop where
  warnings : g.warnings = (unknownIndices c.operations).map .operation ++
    if c.terminal = .unknown then [.terminal] else []
  messages : g.warnings.map Warning.message = (unknownIndices c.operations).map
      (fun i => "operation " ++ Nat.repr i ++ ": unknown kind 'Unknown', emitted 'Error'") ++
    if c.terminal = .unknown then ["terminal: unknown kind 'Unknown', emitted 'Error'"] else []
  statements : ∀ i : Nat, (loopBody g.sdf)[i]? = some "\t\tnew_p = Error;" ↔
    c.operations[i]? = some .unknown
  count : (loopBody g.sdf).count "\t\tnew_p = Error;" = c.operations.count .unknown
  returned : "\treturn Error;" ∈ lines g.sdf ↔ c.terminal = .unknown

theorem warnings_of_generate (h : generate c settings false = .ok g) :
    g.warnings = (unknownIndices c.operations).map .operation ++
      if c.terminal = .unknown then [.terminal] else [] := by
  obtain rfl := Except.ok.inj ((generate_lenient_eq c settings).symm.trans h)
  have hchain : chainWarnings 0 c.operations = (unknownIndices c.operations).map .operation := by
    simp only [chainWarnings, Nat.zero_add]
  rw [← hchain]
  rfl

/-- **Lenient generation marks every unknown kind**, and nothing else. -/
theorem marks_of_generate (h : generate c settings false = .ok g) : Marks c g := by
  have hwarnings := warnings_of_generate h
  have hbody := loopBody_of_generate h
  have hsentinel : "\t\tnew_p = Error;" = chainLine .unknown := rfl
  refine ⟨hwarnings, ?_, ?_, ?_, ?_⟩
  · have hmessage : ∀ i, (Warning.operation i).message =
        "operation " ++ Nat.repr i ++ ": unknown kind 'Unknown', emitted 'Error'" := by
      intro i
      rw [Warning.message, String.append_assoc, String.append_assoc]
      rfl
    rw [hwarnings, List.map_append, List.map_map]
    congr 1
    · exact List.map_congr_left fun i _ => hmessage i
    · split <;> rfl
  · intro i
    rw [hbody, List.getElem?_map, Option.map_eq_some_iff, hsentinel]
    constructor
    · rintro ⟨k, hk, heq⟩
      rwa [chainLine_inj heq] at hk
    · intro hi
      exact ⟨.unknown, hi, rfl⟩
  · rw [hbody, hsentinel]
    exact List.count_map_of_injective _ _ (fun _ _ => chainLine_inj) _
  · rw [lines_of_generate h]
    exact returned_sentinel_iff

/-- There is no warning exactly where no kind is unknown. -/
theorem warnings_eq_nil_iff (h : generate c settings false = .ok g) :
    g.warnings = [] ↔ c.hasUnknown = false := by
  rw [warnings_of_generate h, List.append_eq_nil_iff, List.map_eq_nil_iff,
    unknownIndices_eq_nil_iff, Config.hasUnknown, decide_eq_false_iff_not, not_or, and_comm]
  by_cases hterminal : c.terminal = .unknown
  · simp [hterminal]
  · simp [hterminal]

end Fragment

namespace Store

variable {s : Store} {c : Config} {d d' : Disk}

/-! ## Publications -/

/-- It makes no difference to a publication whether it is strict. -/
theorem publish_strict (s : Store) (c : Config) (strict : Bool) (d : Disk) :
    (s.publish c strict).run d = (s.publish c false).run d := by
  cases hknown : c.hasUnknown with
  | true => rw [publish_of_unknown hknown, publish_of_unknown hknown]
  | false =>
    unfold publish generate
    rw [Fragment.generate_of_known hknown s.settings strict]

/-- What was published has no unknown kinds and was generated from. -/
theorem generated_of_publish {strict : Bool} {p : Published}
    (h : (s.publish c strict).Yields d p d') :
    c.hasUnknown = false ∧ Fragment.generate c s.settings false = .ok p.generated := by
  unfold publish at h
  cases hknown : c.hasUnknown with
  | true =>
    simp only [hknown, if_true, yields_bind] at h
    obtain ⟨_, _, hr, -⟩ := h
    exact absurd hr yields_refuse
  | false =>
    simp only [hknown, Bool.false_eq_true, if_false, yields_bind, yields_emit, yields_pure] at h
    obtain ⟨g, _, hgenerate, _, _, -, _, _, -, _, _, -, rfl, -⟩ := h
    obtain ⟨hg, -⟩ := generate_yields hgenerate
    exact ⟨rfl, (Fragment.generate_of_known hknown s.settings strict).symm.trans hg⟩

/-- **Strict and lenient generation agree.**  Lenient generation of a configuration always succeeds
and marks every unknown kind and nothing else; strict generation succeeds exactly where no kind is
unknown, gives then what lenient generation gives, without warnings, and is refused for an unknown
kind elsewhere.  So a publication does the same on every disk whether it is strict or not, and never
gives back a warning. -/
theorem strict_agrees_with_lenient (s : Store) (c : Config) :
    (∃ g, Fragment.generate c s.settings false = .ok g ∧ Fragment.Marks c g ∧
      (g.warnings = [] ↔ c.hasUnknown = false)) ∧
    ((∃ g, Fragment.generate c s.settings true = .ok g) ↔ c.hasUnknown = false) ∧
    (Fragment.generate c s.settings true = if c.hasUnknown then .error (.unknownKind "Unknown")
      else Fragment.generate c s.settings false) ∧
    (∀ d, (s.publish c true).run d = (s.publish c false).run d) ∧
    ∀ strict d p d', (s.publish c strict).Yields d p d' → p.generated.warnings = [] := by
  have hlenient := Fragment.generate_lenient_eq c s.settings
  refine ⟨⟨_, hlenient, Fragment.marks_of_generate hlenient,
    Fragment.warnings_eq_nil_iff hlenient⟩, ?_, Fragment.generate_strict c s.settings,
    publish_strict s c true, ?_⟩
  · rw [Fragment.generate_ok_iff]
    exact forall_prop_of_true rfl
  · intro strict d p d' h
    obtain ⟨hknown, hg⟩ := generated_of_publish h
    exact (Fragment.warnings_eq_nil_iff hg).mpr hknown

end Store

end FractalShader
