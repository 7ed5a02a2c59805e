import FractalShader.Proofs.Fragment.Reference

/-!
# Nesting and indentation

The braces of a distance fragment are those of the lines that open and close its
blocks, and each line stands under as many tabs as there are open blocks.  So the
depth of the layout can be read off the text: it is the number of braces that are
not closed yet.

* `CodeItem.Braced` — items with the braces that they stand for;
* `Code.ClosesOpen` — code that closes no block where none is open;
* `nests_itemText`, `nests_layout` — the depth counts the open braces, after one
  item and after any code;
* `WellNested` — nested brackets, and lines that are indented by depth;
  `wellNested_text` finds both in the text of any such code;
* `sdf_well_nested` — for the distance fragment of every configuration.
-/

namespace FractalShader

/-! ## Indented lines -/

/-- The tabs that a line starts with. -/
def leadingTabs (l : String) : Nat := (l.toList.takeWhile (· = '\t')).length

/-- A line that is a closing brace. -/
def ClosesBlock (l : String) : Prop := l.toList.dropWhile (· = '\t') = ['\x7d']

instance (l : String) : Decidable (ClosesBlock l) :=
  inferInstanceAs (Decidable (_ = _))

/-- How many more braces a text opens than it closes. -/
def unclosed (cs : List Char) : Int := (cs.count '\x7b' : Int) - cs.count '\x7d'

/-- A text that closes the parentheses and braces that it opens, parentheses on the same line, and
whose lines are indented by the braces that are open. -/
structure WellNested (text : String) : Prop where
  parentheses : Balanced '(' ')' text.toList
  braces : Balanced '\x7b' '\x7d' text.toList
  /-- The text is its lines, each of them ended. -/
  ended_lines : ended (lines text) = text.toList
  line_parentheses : ∀ l ∈ lines text, Balanced '(' ')' l.toList
  indentation : ∀ before l after, lines text = before ++ l :: after → l ≠ "" →
    (leadingTabs l : Int) = unclosed (ended before) - if ClosesBlock l then 1 else 0

/-- Lines with balanced brackets make a text with balanced brackets. -/
theorem balanced_ended {opening closing : Char} {ls : List String} (ho : opening ≠ '\n')
    (hc : closing ≠ '\n') (h : ∀ l ∈ ls, Balanced opening closing l.toList) :
    Balanced opening closing (ended ls) := by
  rw [balanced_iff]
  induction ls with
  | nil => exact nests_of_not_mem List.not_mem_nil List.not_mem_nil
  | cons l ls ih =>
    have hline := balanced_iff.mp (h l List.mem_cons_self)
    have hend : Nests opening closing 0 ['\n'] 0 :=
      nests_of_not_mem (by simpa using ho) (by simpa using hc)
    rw [ended, List.flatMap_cons]
    exact (hline.append hend).append (ih fun l' hl' => h l' (List.mem_cons_of_mem l hl'))

namespace Code

theorem toList_tabs (depth : Nat) (t : String) :
    (tabs depth ++ t).toList = List.replicate depth '\t' ++ t.toList := by
  rw [String.toList_append, tabs, String.toList_ofList]

/-- The tabs before a text that starts without any are the tabs of its line. -/
theorem span_tabs (depth : Nat) {t : String} (h : '\t' ∉ t.toList) :
    (tabs depth ++ t).toList.takeWhile (· = '\t') = List.replicate depth '\t' ∧
      (tabs depth ++ t).toList.dropWhile (· = '\t') = t.toList := by
  have htabs : ∀ ch ∈ List.replicate depth '\t', decide (ch = '\t') = true := fun ch hch =>
    decide_eq_true (List.eq_of_mem_replicate hch)
  rw [toList_tabs, List.takeWhile_append_of_pos htabs, List.dropWhile_append_of_pos htabs]
  cases hcs : t.toList with
  | nil => simp
  | cons ch cs =>
    have hch : ch ≠ '\t' := fun heq => h (by simp [hcs, heq])
    simp [hch]

theorem leadingTabs_tabs (depth : Nat) {t : String} (h : '\t' ∉ t.toList) :
    leadingTabs (tabs depth ++ t) = depth := by
  rw [leadingTabs, (span_tabs depth h).1, List.length_replicate]

theorem closesBlock_tabs (depth : Nat) {t : String} (h : '\t' ∉ t.toList) :
    ClosesBlock (tabs depth ++ t) ↔ t.toList = ['\x7d'] := by
  rw [ClosesBlock, (span_tabs depth h).2]

end Code

/-! ## Code by its items -/

/-- An item whose only brace is that of the block that it opens or closes. -/
inductive CodeItem.Braced : CodeItem → Prop where
  | line {t : String} (h : Inline 0 t 0) : Braced (.line t)
  | blank : Braced .blank
  | opening {t : String} (h : Inline 0 t 0) : Braced (.opening (t ++ "\x7b"))
  | closing : Braced (.closing "\x7d")

namespace Code

/-- Code in which a block is open wherever one is closed, when `n` are open before it. -/
def ClosesOpen (n : Nat) (code : Code) : Prop :=
  ∀ a t b, code = a ++ .closing t :: b → 0 < depth n a

theorem closesOpen_nil (n : Nat) : ClosesOpen n [] := by
  intro a t b h
  exact absurd h (by simp)

theorem closesOpen_cons {n : Nat} {item : CodeItem} {rest : Code} :
    ClosesOpen n (item :: rest) ↔
      (∀ t, item = .closing t → 0 < n) ∧ ClosesOpen (depthAfter n item) rest := by
  constructor
  · intro h
    refine ⟨?_, ?_⟩
    · rintro t rfl
      exact h [] t rest rfl
    · rintro a t b rfl
      exact h (item :: a) t b rfl
  · rintro ⟨hitem, hrest⟩ a t b h
    cases a with
    | nil =>
      obtain ⟨hclosing, -⟩ := List.cons.inj h
      exact hitem t hclosing
    | cons first a =>
      obtain ⟨rfl, htail⟩ := List.cons.inj h
      exact hrest a t b htail

theorem closesOpen_append {n : Nat} {a b : Code} :
    ClosesOpen n (a ++ b) ↔ ClosesOpen n a ∧ ClosesOpen (depth n a) b := by
  induction a generalizing n with
  | nil => exact ⟨fun h => ⟨closesOpen_nil n, h⟩, And.right⟩
  | cons item rest ih =>
    rw [List.cons_append, closesOpen_cons, ih, closesOpen_cons, depth, and_assoc]

/-- Lines that open and close nothing. -/
theorem closesOpen_lines (n : Nat) (xs : List String) : ClosesOpen n (xs.map .line) := by
  rintro a t b h
  have hmem : CodeItem.closing t ∈ xs.map CodeItem.line := by simp [h]
  obtain ⟨x, -, hx⟩ := List.mem_map.mp hmem
  cases hx

/-- Where a line stands among those of some code, and the item that it is the line of. -/
theorem lineTexts_eq_append_cons {n : Nat} {code : Code} {before after : List String} {l : String}
    (h : lineTexts n code = before ++ l :: after) :
    ∃ a item b, code = a ++ item :: b ∧ before = lineTexts n a ∧ l = itemLine (depth n a) item := by
  induction code generalizing n before with
  | nil => exact absurd h (by simp [lineTexts])
  | cons first rest ih =>
    cases before with
    | nil =>
      obtain ⟨rfl, -⟩ := List.cons.inj h
      exact ⟨[], first, rest, rfl, rfl, rfl⟩
    | cons firstLine before =>
      obtain ⟨rfl, htail⟩ := List.cons.inj h
      obtain ⟨a, item, b, rfl, rfl, rfl⟩ := ih htail
      exact ⟨first :: a, item, b, rfl, rfl, rfl⟩

variable {n : Nat} {item : CodeItem} {code : Code}

/-! ### Braces count the depth -/

/-- A line nests its braces as its text does: tabs and newlines are no braces. -/
theorem nests_indented {n m d : Nat} {t : String} (h : Nests '\x7b' '\x7d' n t.toList m) :
    Nests '\x7b' '\x7d' n (indented d t) m := by
  have htabs : Nests '\x7b' '\x7d' n (List.replicate d '\t') n :=
    nests_replicate (by decide) (by decide)
  exact (htabs.append h).append (nests_of_not_mem (by decide) (by decide))

/-- **One item**: with as many braces open before it as its depth says, it leaves open as many as
the depth after it says. -/
theorem nests_itemText (hbraced : item.Braced) (hopen : ∀ t, item = .closing t → 0 < n) :
    Nests '\x7b' '\x7d' n (itemText n item) (depthAfter n item) := by
  cases hbraced with
  | line h => exact nests_indented (nests_of_not_mem h.no_opening h.no_closing)
  | blank =>
    have hno_brace : '\x7b' ∉ ['\n'] ∧ '\x7d' ∉ ['\n'] := by decide
    exact nests_of_not_mem hno_brace.1 hno_brace.2
  | opening h =>
    refine nests_indented ?_
    rw [String.toList_append]
    exact (nests_of_not_mem h.no_opening h.no_closing).append (nests_opening (by decide))
  | closing =>
    obtain ⟨d, rfl⟩ := Nat.exists_eq_succ_of_ne_zero (hopen _ rfl).ne'
    exact nests_indented (nests_closing (by decide))

/-- **Any code**: the depth counts the open braces. -/
theorem nests_layout (hbraced : ∀ item ∈ code, item.Braced) (hopen : ClosesOpen n code) :
    Nests '\x7b' '\x7d' n (layout n code) (depth n code) := by
  induction code generalizing n with
  | nil => exact nests_of_not_mem List.not_mem_nil List.not_mem_nil
  | cons item rest ih =>
    obtain ⟨hitem, hrest⟩ := closesOpen_cons.mp hopen
    have hfirst := nests_itemText (hbraced item List.mem_cons_self) hitem
    exact hfirst.append (ih (fun i hi => hbraced i (List.mem_cons_of_mem item hi)) hrest)

/-! ### Lines -/

/-- Every line closes the parentheses that it opens. -/
theorem balanced_itemLine (hbraced : item.Braced) (n : Nat) :
    Balanced '(' ')' (itemLine n item).toList := by
  have htabs : ∀ d, Nests '(' ')' 0 (List.replicate d '\t') 0 := fun d =>
    nests_replicate (by decide) (by decide)
  rw [balanced_iff]
  cases hbraced with
  | line h =>
    rw [itemLine, toList_tabs]
    exact (htabs n).append h.nests
  | blank => exact nests_of_not_mem List.not_mem_nil List.not_mem_nil
  | opening h =>
    rw [itemLine, toList_tabs, String.toList_append]
    exact (htabs n).append (h.nests.append (nests_of_not_mem (by decide) (by decide)))
  | closing =>
    rw [itemLine, toList_tabs]
    exact (htabs (n - 1)).append (nests_of_not_mem (by decide) (by decide))

/-- A line that is no closing brace starts with the tabs that it stands under. -/
theorem leadingTabs_of_ne {t : String} (hno_tab : '\t' ∉ t.toList) (hne : t.toList ≠ ['\x7d']) :
    (leadingTabs (tabs n ++ t) : Int) = (n : Int) - if ClosesBlock (tabs n ++ t) then 1 else 0 := by
  rw [if_neg (mt (closesBlock_tabs n hno_tab).mp hne), leadingTabs_tabs n hno_tab, Int.sub_zero]

/-- The tabs of a line are its depth, one fewer where a block is closed. -/
theorem leadingTabs_itemLine (hbraced : item.Braced) (hopen : ∀ t, item = .closing t → 0 < n)
    (hne : itemLine n item ≠ "") :
    (leadingTabs (itemLine n item) : Int) =
      (n : Int) - if ClosesBlock (itemLine n item) then 1 else 0 := by
  cases hbraced with
  | line h =>
    refine leadingTabs_of_ne h.no_tab fun hbrace => h.no_closing ?_
    simp [hbrace]
  | blank => exact absurd rfl hne
  | opening h =>
    refine leadingTabs_of_ne ?_ ?_
    · rw [String.toList_append, List.mem_append]
      exact not_or.mpr ⟨h.no_tab, by decide⟩
    · intro hbrace
      have hmem : '\x7b' ∈ ['\x7d'] := by
        rw [← hbrace, String.toList_append]
        exact List.mem_append_right _ (by decide)
      exact absurd hmem (by decide)
  | closing =>
    have hpos : 0 < n := hopen _ rfl
    have hno_tab : '\t' ∉ "\x7d".toList := by decide
    rw [itemLine, if_pos ((closesBlock_tabs (n - 1) hno_tab).mpr rfl),
      leadingTabs_tabs (n - 1) hno_tab]
    omega

/-- **Braced code is well nested**, and indented by depth. -/
theorem wellNested_text (hlines : lines code.text = lineTexts 0 code)
    (hbraced : ∀ item ∈ code, item.Braced) (hopen : ClosesOpen 0 code)
    (hdepth : depth 0 code = 0) : WellNested code.text := by
  have htext : code.text.toList = layout 0 code := by rw [Code.text, String.toList_ofList]
  have hended : ended (lines code.text) = code.text.toList := by
    rw [hlines, htext, layout_eq_ended]
  have hparens : ∀ l ∈ lines code.text, Balanced '(' ')' l.toList := by
    intro l hl
    obtain ⟨before, after, hsplit⟩ := List.append_of_mem hl
    obtain ⟨a, item, b, rfl, -, rfl⟩ := lineTexts_eq_append_cons (hlines.symm.trans hsplit)
    exact balanced_itemLine (hbraced item (by simp)) _
  refine ⟨?_, ?_, hended, hparens, ?_⟩
  · rw [← hended]
    exact balanced_ended (by decide) (by decide) hparens
  · have hbraces := nests_layout hbraced hopen
    rw [hdepth, ← htext] at hbraces
    exact balanced_iff.mpr hbraces
  · intro before l after hsplit hne
    obtain ⟨a, item, b, rfl, rfl, rfl⟩ := lineTexts_eq_append_cons (hlines.symm.trans hsplit)
    obtain ⟨hopenA, hopenRest⟩ := closesOpen_append.mp hopen
    have hitem := (closesOpen_cons.mp hopenRest).1
    have hcount := (nests_layout (fun i hi => hbraced i (List.mem_append_left _ hi)) hopenA).balance
    have hdepthA : unclosed (ended (lineTexts 0 a)) = (depth 0 a : Int) := by
      rw [← layout_eq_ended, unclosed]
      omega
    rw [hdepthA]
    exact leadingTabs_itemLine (hbraced item (by simp)) hitem hne

end Code

/-! ## The distance fragment -/

namespace Fragment

open Code

/-- A line that opens a block, written out with its brace. -/
theorem braced_opening {t : String} (s : String) (h : t = s ++ "\x7b") (hs : Inline 0 s 0) :
    (CodeItem.opening t).Braced := by
  rw [h]
  exact .opening hs

theorem braced_sdfCode (operations : List FoldKind) (terminal : SdfKind) :
    ∀ item ∈ sdfCode (operations.map foldLine) (returnedText terminal), item.Braced := by
  intro item hitem
  rw [sdfCode, List.mem_append, List.mem_append] at hitem
  rcases hitem with (hitem | hitem) | hitem
  · simp only [List.mem_cons, List.not_mem_nil, or_false] at hitem
    rcases hitem with rfl | rfl | rfl | rfl | rfl
    · exact braced_opening "float2 sdf(float3 p) " rfl
        (.of_eq (_ :: _) rfl (by decide) (by decide))
    · exact .line (.of_eq (_ :: _) rfl (by decide) (by decide))
    · exact .line (.of_eq (_ :: _) rfl (by decide) (by decide))
    · exact .line (.of_eq (_ :: _) rfl (by decide) (by decide))
    · exact braced_opening "for (int i = 0; i < library.Iterations; i++) " rfl
        (.of_eq (_ :: _) rfl (by decide) (by decide))
  · obtain ⟨t, ht, rfl⟩ := List.mem_map.mp hitem
    obtain ⟨k, -, rfl⟩ := List.mem_map.mp ht
    exact .line (inline_foldLine k)
  · have hreturn : Inline 0 "return " 0 := .of_eq (_ :: _) rfl (by decide) (by decide)
    have hend : Inline 0 ";" 0 := .of_eq (_ :: _) rfl (by decide) (by decide)
    simp only [List.mem_cons, List.not_mem_nil, or_false] at hitem
    rcases hitem with rfl | rfl | rfl | rfl
    · exact .blank
    · exact .closing
    · exact .line ((hreturn.append (inline_returnedText terminal)).append hend)
    · exact .closing

/-- Both blocks are open around the chain, and each is closed once after it. -/
theorem closesOpen_sdfCode (statements : List String) (returned : String) :
    ClosesOpen 0 (sdfCode statements returned) := by
  rw [sdfCode, closesOpen_append, closesOpen_append]
  refine ⟨⟨?_, closesOpen_lines 2 statements⟩, ?_⟩
  · simp [closesOpen_cons, closesOpen_nil]
  · rw [depth_append, depth_lines]
    simp [closesOpen_cons, closesOpen_nil, depth, depthAfter]

theorem depth_sdfCode (statements : List String) (returned : String) :
    depth 0 (sdfCode statements returned) = 0 := by
  rw [sdfCode, depth_append, depth_append, depth_lines]
  rfl

/-- Whatever is generated has a well nested distance fragment. -/
theorem wellNested_of_generate {c : Config} {settings : Settings} {strict : Bool} {g : Generated}
    (h : generate c settings strict = .ok g) : WellNested g.sdf := by
  have hlenient := generate_lenient_of_ok h
  obtain rfl := Except.ok.inj ((generate_lenient_eq c settings).symm.trans hlenient)
  refine wellNested_text ?_ (braced_sdfCode c.operations c.terminal) (closesOpen_sdfCode _ _)
    (depth_sdfCode _ _)
  rw [lines_sdfCode, lineTexts_sdfCode]

/-- **The distance fragment is well nested and indented by depth.**  Every configuration is
generated in lenient mode, whatever its chain holds.  Read from left to right, its distance fragment
closes no parenthesis and no brace that is not open, and leaves none open; each line closes its own
parentheses; and each line that is not empty starts with as many tabs as there are open braces
before it, one fewer if the line is a closing brace.  The depth at which the code is laid out is
lowered only where it is positive, and is zero again at the end. -/
theorem sdf_well_nested (c : Config) (settings : Settings) :
    ∃ code warnings g, sdf false c = .ok (code, warnings) ∧
      generate c settings false = .ok g ∧ g.sdf = code.text ∧ WellNested g.sdf ∧
      ClosesOpen 0 code ∧ depth 0 code = 0 := by
  have hg := generate_lenient_eq c settings
  exact ⟨_, _, _, sdf_lenient c, hg, rfl, wellNested_of_generate hg, closesOpen_sdfCode _ _,
    depth_sdfCode _ _⟩

end Fragment

end FractalShader
