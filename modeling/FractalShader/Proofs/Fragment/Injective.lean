import FractalShader.Proofs.Fragment.Reference

/-!
# Generated code determines the configuration

No two configurations have the same fragments: the chain and the distance
function can be read off the distance fragment, and the name off the driver.

* `foldOfLine_foldLine`, `sdfOfText_returnedText` — the line of a fold and the
  returned expression say which kind they stand for, `unknown` included;
* `referenceLines_inj` — so the lines of a distance fragment say which chain and
  which distance function they are of;
* `sdfCode_inj`, `driverCode_inj` — each fragment as a function of what it shows;
* `fragments_determine_config` — both fragments together.
-/

namespace FractalShader.Fragment

open Code

/-! ## Kinds -/

/-- The fold of which this is the line. -/
def foldOfLine (line : String) : FoldKind :=
  (FoldKind.all.find? fun k => foldLine k = line).getD .unknown

/-- The distance function for which this expression is returned. -/
def sdfOfText (expr : String) : SdfKind :=
  (SdfKind.all.find? fun k => returnedText k = expr).getD .unknown

theorem foldOfLine_foldLine (k : FoldKind) : foldOfLine (foldLine k) = k := by
  cases k <;> rfl

theorem sdfOfText_returnedText (k : SdfKind) : sdfOfText (returnedText k) = k := by
  cases k <;> rfl

theorem foldLine_inj {j k : FoldKind} (h : foldLine j = foldLine k) : j = k := by
  rw [← foldOfLine_foldLine j, h, foldOfLine_foldLine]

theorem returnedText_inj {j k : SdfKind} (h : returnedText j = returnedText k) : j = k := by
  rw [← sdfOfText_returnedText j, h, sdfOfText_returnedText]

/-! ## The distance fragment -/

theorem chainLine_inj {j k : FoldKind} (h : chainLine j = chainLine k) : j = k := by
  rw [chainLine_eq, chainLine_eq, String.append_right_inj] at h
  exact foldLine_inj h

/-- The lines say what the chain and the distance function are: only the chain makes them more or
fewer. -/
theorem referenceLines_inj {fs gs : List FoldKind} {j k : SdfKind}
    (h : referenceLines fs j = referenceLines gs k) : fs = gs ∧ j = k := by
  rw [referenceLines, referenceLines, List.append_assoc, List.append_assoc] at h
  obtain ⟨hchain, hclosing⟩ := List.append_inj' (List.append_cancel_left h) rfl
  have hreturn : "\treturn " ++ returnedText j ++ ";" = "\treturn " ++ returnedText k ++ ";" :=
    (List.cons.inj (List.cons.inj (List.cons.inj hclosing).2).2).1
  rw [String.append_left_inj, String.append_right_inj] at hreturn
  exact ⟨(List.map_inj_right fun _ _ => chainLine_inj).mp hchain, returnedText_inj hreturn⟩

/-- A distance fragment says what its chain and its distance function are. -/
theorem sdfCode_inj {fs gs : List FoldKind} {j k : SdfKind} :
    (sdfCode (fs.map foldLine) (returnedText j)).text
        = (sdfCode (gs.map foldLine) (returnedText k)).text ↔ fs = gs ∧ j = k := by
  constructor
  · intro h
    have hlines : referenceLines fs j = referenceLines gs k := by
      rw [← lines_sdfCode fs j, h, lines_sdfCode]
    exact referenceLines_inj hlines
  · rintro ⟨rfl, rfl⟩
    rfl

/-! ## The driver -/

/-- A driver is the same for all names, but for one place where it has the name. -/
theorem layout_driverCode (settings : Settings) :
    ∃ front back, ∀ name, layout 0 (driverCode settings name) = front ++ (name.toList ++ back) := by
  refine ⟨layout 0 [includeLine settings settings.libraryInclude,
      .blank,
      .line "struct SDF \x7b",
      .line "SDFractal library;",
      .line "float3 outputColor;",
      .blank] ++ ("#include \"" ++ settings.includeRoot).toList,
    ("SDF." ++ settings.fragmentExt ++ "\"\n").toList ++ layout 0 [.line "\x7d;",
      .blank,
      includeLine settings settings.driverInclude], ?_⟩
  intro name
  simp [driverCode, includeLine, sdfStem, Settings.includePath, layout, itemText, indented,
    depthAfter]

/-- A driver says which name it is for. -/
theorem driverCode_inj {settings : Settings} {m n : String} :
    (driverCode settings m).text = (driverCode settings n).text ↔ m = n := by
  constructor
  · intro h
    obtain ⟨front, back, hlayout⟩ := layout_driverCode settings
    rw [text, text, String.ofList_inj, hlayout, hlayout] at h
    exact String.toList_inj.mp (List.append_cancel_right (List.append_cancel_left h))
  · rintro rfl
    rfl

/-! ## Both fragments -/

/-- **The fragments determine the configuration.**  Any two configurations are generated in lenient
mode; their distance fragments agree exactly when the chains and the distance functions do, their
drivers exactly when the names do, and both together exactly when the configurations are one. -/
theorem fragments_determine_config (settings : Settings) (c₁ c₂ : Config) :
    ∃ g₁ g₂, generate c₁ settings false = .ok g₁ ∧ generate c₂ settings false = .ok g₂ ∧
      (g₁.sdf = g₂.sdf ↔ c₁.operations = c₂.operations ∧ c₁.terminal = c₂.terminal) ∧
      (g₁.driver = g₂.driver ↔ c₁.name = c₂.name) ∧
      (g₁.driver = g₂.driver ∧ g₁.sdf = g₂.sdf ↔ c₁ = c₂) := by
  obtain ⟨ws₁, h₁⟩ := generate_lenient c₁ settings
  obtain ⟨ws₂, h₂⟩ := generate_lenient c₂ settings
  refine ⟨_, _, h₁, h₂, sdfCode_inj, driverCode_inj, ?_⟩
  rw [sdfCode_inj, driverCode_inj]
  constructor
  · rintro ⟨hname, hoperations, hterminal⟩
    obtain ⟨name₁, operations₁, terminal₁⟩ := c₁
    obtain ⟨name₂, operations₂, terminal₂⟩ := c₂
    cases hname
    cases hoperations
    cases hterminal
    rfl
  · rintro rfl
    exact ⟨rfl, rfl, rfl⟩

end FractalShader.Fragment
