import FractalShader.Fragment

/-!
# When generation fails

In lenient mode every kind has a statement or an expression of its own, the
sentinel where the catalog has nothing, so every configuration is generated.
In strict mode an unknown kind is refused, and nothing else differs.

* `unknownIndices` — the entries that are warned about;
* `statement_lenient`, `chain_lenient` — each entry of a chain becomes the line
  of its kind, wherever it stands;
* `generate_lenient_eq` — both fragments of any configuration, with the warnings;
* `generate_strict` — strict generation by lenient generation;
* `generate_ok_iff`, `generate_error` — when generation succeeds, and its only
  error.
-/

namespace FractalShader.Fragment

/-- The statement of a fold, without its indentation. -/
def foldLine (k : FoldKind) : String :=
  match k.emission? with
  | some .orbit => orbitStatement
  | some (.transform call) => "new_p = " ++ call.expr ++ ";"
  | none => "new_p = " ++ sentinel ++ ";"

/-- The expression that a generated function returns for a distance function. -/
def returnedText (k : SdfKind) : String := k.returned?.getD sentinel

/-! ## Warnings -/

/-- The indices of the unknown entries of a chain, in order. -/
def unknownIndices (ks : List FoldKind) : List Nat :=
  (List.range ks.length).filter fun i => decide (ks[i]? = some .unknown)

/-- The warnings about a chain that starts at `index`. -/
def chainWarnings (index : Nat) (ks : List FoldKind) : List Warning :=
  (unknownIndices ks).map fun i => .operation (index + i)

/-- The warnings about a distance function. -/
def terminalWarnings (k : SdfKind) : List Warning := if k = .unknown then [.terminal] else []

/-- The indices of a longer chain are one higher, after that of its first entry. -/
theorem unknownIndices_cons (k : FoldKind) (ks : List FoldKind) :
    unknownIndices (k :: ks) =
      (if k = .unknown then [0] else []) ++ (unknownIndices ks).map Nat.succ := by
  simp only [unknownIndices, List.length_cons, List.range_succ_eq_map, List.filter_cons,
    List.filter_map]
  by_cases hk : k = .unknown
  · simp [hk, Function.comp_def]
  · simp [hk, Function.comp_def]

theorem chainWarnings_cons (index : Nat) (k : FoldKind) (ks : List FoldKind) :
    chainWarnings index (k :: ks) =
      (if k = .unknown then [.operation index] else []) ++ chainWarnings (index + 1) ks := by
  have hlater : ((unknownIndices ks).map Nat.succ).map (fun i => Warning.operation (index + i)) =
      chainWarnings (index + 1) ks := by
    rw [List.map_map, chainWarnings]
    refine List.map_congr_left fun i _ => congrArg Warning.operation ?_
    show index + (i + 1) = index + 1 + i
    omega
  rw [chainWarnings, unknownIndices_cons, List.map_append, hlater]
  split <;> rfl

/-! ## Lenient generation -/

theorem statement_lenient (index : Nat) (k : FoldKind) :
    statement false index k =
      .ok (foldLine k, if k = .unknown then [.operation index] else []) := by
  cases k <;> rfl

theorem chain_lenient (index : Nat) (ks : List FoldKind) :
    chain false index ks = .ok (ks.map foldLine, chainWarnings index ks) := by
  induction ks generalizing index with
  | nil => rfl
  | cons k ks ih =>
    rw [chain, statement_lenient, chainWarnings_cons]
    simp only [ih, List.map_cons]

theorem returned_lenient (k : SdfKind) :
    orSentinel false .terminal k.returned? = .ok (returnedText k, terminalWarnings k) := by
  cases k <;> rfl

/-- The code of a distance fragment in lenient mode, and the warnings about it. -/
theorem sdf_lenient (c : Config) :
    sdf false c = .ok (sdfCode (c.operations.map foldLine) (returnedText c.terminal),
      chainWarnings 0 c.operations ++ terminalWarnings c.terminal) := by
  rw [sdf, chain_lenient]
  simp only [returned_lenient]

/-- **Every configuration is generated** in lenient mode, each fold to its line and the distance
function to its expression, with a warning for each unknown entry and one for an unknown distance
function. -/
theorem generate_lenient_eq (c : Config) (settings : Settings) :
    generate c settings false = .ok ⟨(driverCode settings c.name).text,
      (sdfCode (c.operations.map foldLine) (returnedText c.terminal)).text,
      chainWarnings 0 c.operations ++ terminalWarnings c.terminal⟩ := by
  rw [generate, sdf_lenient]

/-- What is generated in lenient mode, whatever the warnings are. -/
theorem generate_lenient (c : Config) (settings : Settings) :
    ∃ ws, generate c settings false = .ok ⟨(driverCode settings c.name).text,
      (sdfCode (c.operations.map foldLine) (returnedText c.terminal)).text, ws⟩ :=
  ⟨_, generate_lenient_eq c settings⟩

/-! ## Strict generation -/

/-- **Strict generation is lenient generation** where no kind is unknown, and is refused
elsewhere. -/
theorem generate_strict (c : Config) (settings : Settings) :
    generate c settings true =
      if c.hasUnknown then .error (.unknownKind "Unknown") else generate c settings false := by
  rw [generate, generate, sdf, sdf, chain_strict, chain_lenient]
  by_cases hfold : .unknown ∈ c.operations
  · have hunknown : c.hasUnknown = true := decide_eq_true (.inr hfold)
    rw [if_pos hfold, if_pos hunknown]
  · by_cases hterminal : c.terminal = .unknown
    · have hunknown : c.hasUnknown = true := decide_eq_true (.inl hterminal)
      rw [if_neg hfold, if_pos hunknown, hterminal]
      rfl
    · have hknown : ¬ c.hasUnknown = true := fun h => (of_decide_eq_true h).elim hterminal hfold
      obtain ⟨expr, hexpr⟩ := Option.ne_none_iff_exists'.mp
        (mt SdfKind.returned?_eq_none_iff.mp hterminal)
      rw [if_neg hfold, if_neg hknown, hexpr]
      rfl

/-- For a configuration of known kinds it makes no difference whether generation is strict. -/
theorem generate_of_known {c : Config} (h : c.hasUnknown = false) (settings : Settings)
    (strict : Bool) : generate c settings strict = generate c settings false := by
  cases strict with
  | false => rfl
  | true => rw [generate_strict, if_neg (by simp [h])]

/-- Generation is refused for an unknown kind only. -/
theorem generate_error {c : Config} {settings : Settings} {strict : Bool}
    {e : PresetError} (h : generate c settings strict = .error e) :
    e = .unknownKind "Unknown" := by
  cases strict with
  | false =>
    rw [generate_lenient_eq] at h
    exact absurd h (by simp)
  | true =>
    rw [generate_strict] at h
    split at h
    · exact (Except.error.inj h).symm
    · rw [generate_lenient_eq] at h
      exact absurd h (by simp)

/-- Strict generation is refused for unknown kinds, and no generation for anything else. -/
theorem generate_ok_iff {c : Config} {settings : Settings} {strict : Bool} :
    (∃ g, generate c settings strict = .ok g) ↔ (strict = true → c.hasUnknown = false) := by
  constructor
  · rintro ⟨g, hg⟩ rfl
    rw [generate_strict] at hg
    split at hg
    · exact absurd hg (by simp)
    · next hknown => exact Bool.eq_false_iff.mpr hknown
  · intro h
    cases strict with
    | false => exact ⟨_, generate_lenient_eq c settings⟩
    | true =>
      exact ⟨_, (generate_of_known (h rfl) settings true).trans (generate_lenient_eq c settings)⟩

/-- What is generated in strict mode is generated in lenient mode. -/
theorem generate_lenient_of_ok {c : Config} {settings : Settings} {strict : Bool} {g : Generated}
    (h : generate c settings strict = .ok g) : generate c settings false = .ok g := by
  cases strict with
  | false => exact h
  | true =>
    have hknown : c.hasUnknown = false := generate_ok_iff.mp ⟨g, h⟩ rfl
    rwa [generate_of_known hknown] at h

end FractalShader.Fragment
