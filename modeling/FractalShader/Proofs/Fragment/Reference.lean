import FractalShader.Proofs.Fragment.Inline
import Mathlib.Data.List.Infix

/-!
# The lines of a distance fragment

A distance fragment has five lines of its own, then one line for each entry of
the chain, and four lines after these.  What stands in the body of its loop is
the chain, entry by entry.

* `Code.lineTexts`, `Code.layout_eq_ended` — laid out code, line by line;
* `referenceLines` — the lines of a distance fragment as a function of the chain
  and the distance function;
* `toList_sdfCode`, `lines_sdfCode` — the text that is made of them, and cut into
  them again; `lines_of_generate` — they are what generation writes;
* `loopBody` — the lines between the head of the loop and its end, as they are
  searched for in a text; `loopBody_of_lines` finds those of the chain;
* `reference_form` — both for every configuration.
-/

namespace FractalShader

/-! ## Laid out code, line by line -/

namespace Code

/-- So many tabs. -/
def tabs (depth : Nat) : String := String.ofList (List.replicate depth '\t')

/-- The line on which an item stands. -/
def itemLine (depth : Nat) : CodeItem → String
  | .line text => tabs depth ++ text
  | .blank => ""
  | .opening text => tabs depth ++ text
  | .closing text => tabs (depth - 1) ++ text

/-- The lines of `code` when `depth` blocks are open before it. -/
def lineTexts : Nat → Code → List String
  | _, [] => []
  | n, item :: rest => itemLine n item :: lineTexts (depthAfter n item) rest

theorem itemText_eq (n : Nat) (item : CodeItem) :
    itemText n item = (itemLine n item).toList ++ ['\n'] := by
  cases item <;> simp [itemText, itemLine, indented, tabs]

/-- Code is laid out as its lines. -/
theorem layout_eq_ended (n : Nat) (code : Code) : layout n code = ended (lineTexts n code) := by
  induction code generalizing n with
  | nil => rfl
  | cons item rest ih =>
    rw [layout, lineTexts, ended, List.flatMap_cons, itemText_eq, ih]
    rfl

theorem lineTexts_append (n : Nat) (a b : Code) :
    lineTexts n (a ++ b) = lineTexts n a ++ lineTexts (depth n a) b := by
  induction a generalizing n with
  | nil => rfl
  | cons item rest ih => simp [lineTexts, depth, ih]

theorem depth_lines (n : Nat) (xs : List String) : depth n (xs.map .line) = n := by
  induction xs with
  | nil => rfl
  | cons x xs ih => exact ih

theorem lineTexts_lines (n : Nat) (xs : List String) :
    lineTexts n (xs.map .line) = xs.map (tabs n ++ ·) := by
  induction xs with
  | nil => rfl
  | cons x xs ih =>
    rw [List.map_cons, lineTexts, List.map_cons]
    exact congrArg _ ih

end Code

namespace Fragment

open Code

/-! ## The reference form -/

/-- The lines before those of the chain; the last of them is the head of the loop. -/
def openingLines : List String :=
  ["float2 sdf(float3 p) \x7b",
    "\toutputColor = library.orbitInitInf();",
    "\tfloat4 new_p = float4(p, 1.0f);",
    "\tfloat d = 1e20;",
    "\tfor (int i = 0; i < library.Iterations; i++) \x7b"]

/-- The lines after those of the chain. -/
def closingLines (terminal : SdfKind) : List String :=
  ["", "\t\x7d", "\treturn " ++ returnedText terminal ++ ";", "\x7d"]

/-- The expression by which a fold replaces the point. -/
def foldExpr (k : FoldKind) : String :=
  match k.emission? with
  | some (.transform call) => "library." ++ call.function ++ call.arguments
  | _ => "Error"

/-- The line of a chain entry. -/
def chainLine (k : FoldKind) : String :=
  "\t\t" ++ if k.isOrbit then "outputColor = library.orbitByType(outputColor, new_p);"
    else "new_p = " ++ foldExpr k ++ ";"

/-- The lines of a distance fragment, from top to bottom. -/
def referenceLines (operations : List FoldKind) (terminal : SdfKind) : List String :=
  openingLines ++ operations.map chainLine ++ closingLines terminal

theorem chainLine_eq (k : FoldKind) : chainLine k = tabs 2 ++ foldLine k := by
  cases k <;> rfl

theorem lineTexts_sdfCode (operations : List FoldKind) (terminal : SdfKind) :
    lineTexts 0 (sdfCode (operations.map foldLine) (returnedText terminal)) =
      referenceLines operations terminal := by
  have hchain : lineTexts 2 ((operations.map foldLine).map .line) = operations.map chainLine := by
    rw [lineTexts_lines, List.map_map]
    exact List.map_congr_left fun k _ => (chainLine_eq k).symm
  have hreturn : tabs 1 ++ ("return " ++ returnedText terminal ++ ";") =
      "\treturn " ++ returnedText terminal ++ ";" := by
    rw [← String.append_assoc, ← String.append_assoc]
    rfl
  rw [sdfCode, lineTexts_append, lineTexts_append, depth_append, referenceLines, closingLines,
    ← hchain, ← hreturn]
  rw [show depth 0 _ = 2 from rfl, depth_lines]
  rfl

theorem isPlainLine_of_mem_referenceLines {operations : List FoldKind} {terminal : SdfKind}
    {l : String} (h : l ∈ referenceLines operations terminal) : IsPlainLine l := by
  rw [referenceLines, List.mem_append, List.mem_append] at h
  rcases h with (h | h) | h
  · simp only [openingLines, List.mem_cons, List.not_mem_nil, or_false] at h
    rcases h with rfl | rfl | rfl | rfl | rfl <;>
      exact isPlainLine_of_eq (_ :: _) rfl (by decide) (by decide)
  · obtain ⟨k, -, rfl⟩ := List.mem_map.mp h
    rw [chainLine_eq]
    exact (isPlainLine_of_eq (_ :: _) rfl (by decide) (by decide)).append
      (inline_foldLine k).isPlainLine
  · simp only [closingLines, List.mem_cons, List.not_mem_nil, or_false] at h
    have hreturn : IsPlainLine "\treturn " :=
      isPlainLine_of_eq (_ :: _) rfl (by decide) (by decide)
    have hend : IsPlainLine ";" := isPlainLine_of_eq (_ :: _) rfl (by decide) (by decide)
    rcases h with rfl | rfl | rfl | rfl
    · exact isPlainLine_of_eq [] rfl (by decide) (by decide)
    · exact isPlainLine_of_eq (_ :: _) rfl (by decide) (by decide)
    · exact (hreturn.append (inline_returnedText terminal).isPlainLine).append hend
    · exact isPlainLine_of_eq (_ :: _) rfl (by decide) (by decide)

/-- The text of a distance fragment is that of its lines. -/
theorem toList_sdfCode (operations : List FoldKind) (terminal : SdfKind) :
    (sdfCode (operations.map foldLine) (returnedText terminal)).text.toList =
      ended (referenceLines operations terminal) := by
  rw [Code.text, String.toList_ofList, layout_eq_ended, lineTexts_sdfCode]

/-- The lines of a distance fragment are found again in its text. -/
theorem lines_sdfCode (operations : List FoldKind) (terminal : SdfKind) :
    lines (sdfCode (operations.map foldLine) (returnedText terminal)).text =
      referenceLines operations terminal :=
  lines_of_ended (toList_sdfCode operations terminal) fun _ => isPlainLine_of_mem_referenceLines

/-- What is generated in lenient mode has the lines of the reference form. -/
theorem lines_of_generate {c : Config} {settings : Settings} {g : Generated}
    (h : generate c settings false = .ok g) :
    lines g.sdf = referenceLines c.operations c.terminal := by
  obtain rfl := Except.ok.inj ((generate_lenient_eq c settings).symm.trans h)
  exact lines_sdfCode c.operations c.terminal

/-! ## The body of the loop -/

/-- What the head of the loop is known by. -/
def loopHead : String := "for (int i = 0; i < library.Iterations; i++) \x7b"

/-- The lines of a text between the first that holds the head of the loop and the next closing
brace under one tab, without blank ones. -/
def loopBody (text : String) : List String :=
  let fromHead := (lines text).dropWhile fun l => !decide (loopHead.toList <:+: l.toList)
  let between := (fromHead.drop 1).takeWhile fun l => decide (l ≠ "\t\x7d")
  between.filter fun l => decide (trimmed l.toList ≠ [])

/-- The head of the loop is found on the fifth line, and not before: the others are too short. -/
theorem dropWhile_openingLines (rest : List String) :
    (openingLines ++ rest).dropWhile (fun l => !decide (loopHead.toList <:+: l.toList)) =
      ("\t" ++ loopHead) :: rest := by
  have hshort : ∀ l ∈ openingLines.take 4, l.toList.length < loopHead.toList.length := by decide
  have hhead : loopHead.toList <:+: ("\t" ++ loopHead).toList := by
    rw [String.toList_append]
    exact (List.suffix_append _ _).isInfix
  have hcut : openingLines = openingLines.take 4 ++ ["\t" ++ loopHead] := rfl
  rw [hcut, List.append_assoc, List.dropWhile_append_of_pos]
  · rw [List.singleton_append, List.dropWhile_cons_of_neg]
    simpa using hhead
  · intro l hl
    have hnot : ¬ loopHead.toList <:+: l.toList := fun hin =>
      Nat.not_le.mpr (hshort l hl) hin.length_le
    simpa using hnot

theorem chainLine_ne_brace (k : FoldKind) : chainLine k ≠ "\t\x7d" := by
  intro h
  have hlist := congrArg String.toList h
  rw [chainLine, String.toList_append] at hlist
  simp at hlist

/-- Every statement assigns something. -/
theorem chainLine_not_blank (k : FoldKind) : trimmed (chainLine k).toList ≠ [] := by
  have hmem : '=' ∈ (chainLine k).toList := by
    rw [chainLine, String.toList_append]
    refine List.mem_append_right _ ?_
    split
    · decide
    · rw [String.toList_append, String.toList_append]
      exact List.mem_append_left _ (List.mem_append_left _ (by decide))
  intro h
  exact absurd (trimmed_eq_nil_iff.mp h '=' hmem) (by decide)

/-- **The body of the loop is the chain**, one line for each entry. -/
theorem loopBody_of_lines {text : String} {operations : List FoldKind} {terminal : SdfKind}
    (h : lines text = referenceLines operations terminal) :
    loopBody text = operations.map chainLine := by
  have hchain : ∀ l ∈ operations.map chainLine, l ≠ "\t\x7d" ∧ trimmed l.toList ≠ [] := by
    intro l hl
    obtain ⟨k, -, rfl⟩ := List.mem_map.mp hl
    exact ⟨chainLine_ne_brace k, chainLine_not_blank k⟩
  have hbetween : (operations.map chainLine ++ closingLines terminal).takeWhile
      (fun l => decide (l ≠ "\t\x7d")) = operations.map chainLine ++ [""] := by
    rw [List.takeWhile_append_of_pos fun l hl => decide_eq_true (hchain l hl).1]
    rfl
  have hkept : (operations.map chainLine).filter (fun l => decide (trimmed l.toList ≠ [])) =
      operations.map chainLine :=
    List.filter_eq_self.mpr fun l hl => decide_eq_true (hchain l hl).2
  rw [loopBody, h, referenceLines, List.append_assoc, dropWhile_openingLines, List.drop_one,
    List.tail_cons, hbetween, List.filter_append, hkept]
  exact List.append_nil _

/-- What is generated in lenient mode has the chain in its loop. -/
theorem loopBody_of_generate {c : Config} {settings : Settings} {g : Generated}
    (h : generate c settings false = .ok g) : loopBody g.sdf = c.operations.map chainLine :=
  loopBody_of_lines (lines_of_generate h)

/-- **The reference form of a distance fragment.**  Every configuration is generated in lenient
mode.  Cut at its newlines, the distance fragment gives the opening lines, one line for each entry
of the chain, in order, and the closing lines, with nothing after the last newline; the body of the
loop is the chain, entry by entry, whichever statements it holds; and the body of two chains joined
is that of the first followed by that of the second. -/
theorem reference_form (settings : Settings) :
    (∀ c : Config, ∃ g, generate c settings false = .ok g ∧
      fields '\n' g.sdf.toList =
        (referenceLines c.operations c.terminal).map String.toList ++ [[]] ∧
      lines g.sdf = referenceLines c.operations c.terminal ∧
      loopBody g.sdf = c.operations.map chainLine ∧
      (loopBody g.sdf).length = c.operations.length) ∧
    ∀ (first second : List FoldKind) (name₁ name₂ name : String) (k₁ k₂ k : SdfKind),
      ∃ g₁ g₂ g, generate ⟨name₁, first, k₁⟩ settings false = .ok g₁ ∧
        generate ⟨name₂, second, k₂⟩ settings false = .ok g₂ ∧
        generate ⟨name, first ++ second, k⟩ settings false = .ok g ∧
        loopBody g.sdf = loopBody g₁.sdf ++ loopBody g₂.sdf := by
  constructor
  · intro c
    obtain ⟨ws, hg⟩ := generate_lenient c settings
    have hbody := loopBody_of_generate hg
    refine ⟨_, hg, ?_, lines_of_generate hg, hbody, ?_⟩
    · rw [toList_sdfCode]
      exact fields_ended fun l hl => (isPlainLine_of_mem_referenceLines hl).no_newline
    · rw [hbody, List.length_map]
  · intro first second name₁ name₂ name k₁ k₂ k
    obtain ⟨ws₁, h₁⟩ := generate_lenient ⟨name₁, first, k₁⟩ settings
    obtain ⟨ws₂, h₂⟩ := generate_lenient ⟨name₂, second, k₂⟩ settings
    obtain ⟨ws, h⟩ := generate_lenient ⟨name, first ++ second, k⟩ settings
    refine ⟨_, _, _, h₁, h₂, h, ?_⟩
    rw [loopBody_of_generate h, loopBody_of_generate h₁, loopBody_of_generate h₂]
    exact List.map_append

end Fragment

end FractalShader
