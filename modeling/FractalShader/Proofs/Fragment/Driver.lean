import FractalShader.Proofs.Fragment.Reference
import FractalShader.Proofs.Fragment.Undecodable
import FractalShader.Proofs.Store.Effects

/-!
# The lines of a driver

A driver has ten lines, and three of them include a file.  The second one names the
distance fragment of the preset, by the file name under which the store keeps it.

The name of a preset stands between the quotes of that line as it is, and a preset may
have any name that is a part of a path.  So one that closes the quote or ends the line
is accepted, and its driver is not of the form that the others have.

* `driverLines`, `toList_driverCode` — a driver line by line;
* `Includes`, `WellFormed` — what is expected of a driver when it is cut into lines
  again;
* `wellFormed_driver_iff` — for which names that is so;
* `Store.sdf_of_writeFragments` — where the distance fragment is stored;
* `driver_form` — all of it, for every configuration.
-/

namespace FractalShader

open FractalShader.Action FractalShader.Disk

namespace Fragment

open Code

/-! ## The template -/

/-- The line that includes the file at `path`. -/
def directive (path : String) : String := "#include \"" ++ path ++ "\""

/-- The lines of the driver of the preset `name`, from top to bottom. -/
def driverLines (settings : Settings) (name : String) : List String :=
  [directive (settings.includePath settings.libraryInclude),
    "",
    "struct SDF \x7b",
    "SDFractal library;",
    "float3 outputColor;",
    "",
    directive (settings.includePath (sdfStem name)),
    "\x7d;",
    "",
    directive (settings.includePath settings.driverInclude)]

/-- The text of a driver is that of its lines, whatever the name. -/
theorem toList_driverCode (settings : Settings) (name : String) :
    (driverCode settings name).text.toList = ended (driverLines settings name) := by
  have hflat : ∀ text, itemLine 0 (.line text) = text := fun text => String.empty_append ..
  have hlines : lineTexts 0 (driverCode settings name) = driverLines settings name := by
    simp only [driverCode, lineTexts, includeLine, depthAfter, hflat]
    rfl
  rw [Code.text, String.toList_ofList, layout_eq_ended, hlines]

/-! ## What is read of it -/

/-- A text that can be quoted on one line. -/
structure IsQuotable (path : String) : Prop extends IsPlainLine path where
  no_quote : '"' ∉ path.toList

/-- Does this line start an include directive? -/
def isDirective (line : List Char) : Bool := "#include".toList.isPrefixOf line

/-- The include directives of a text are those of these paths, in this order, and each path ends
where its quote is closed. -/
structure Includes (text : String) (paths : List String) : Prop where
  directives : (fields '\n' text.toList).filter isDirective =
    paths.map fun path => (directive path).toList
  quotable : ∀ path ∈ paths, IsQuotable path

/-- What is expected of the driver of the preset `name` when its distance fragment is stored as
`file`: the ten lines and nothing after them, and three directives, of which the second includes
that file. -/
structure WellFormed (settings : Settings) (name file text : String) : Prop where
  template : fields '\n' text.toList = (driverLines settings name).map String.toList ++ [[]]
  includes : ∃ library marcher,
    Includes text [library, settings.includeRoot ++ file, marcher]

theorem IsQuotable.append {a b : String} (ha : IsQuotable a) (hb : IsQuotable b) :
    IsQuotable (a ++ b) where
  toIsPlainLine := ha.toIsPlainLine.append hb.toIsPlainLine
  no_quote := by
    rw [String.toList_append, List.mem_append]
    exact not_or.mpr ⟨ha.no_quote, hb.no_quote⟩

/-- A text that is written out has the characters that are written. -/
theorem isQuotable_of_eq {l : String} (cs : List Char) (h : l = String.ofList cs)
    (hn : '\n' ∉ cs) (hr : '\r' ∉ cs) (hq : '"' ∉ cs) : IsQuotable l where
  toIsPlainLine := isPlainLine_of_eq cs h hn hr
  no_quote := by rwa [h, String.toList_ofList]

/-- What is part of a path that can be quoted can be quoted as well. -/
theorem IsQuotable.of_subset {a b : String} (h : IsQuotable b)
    (hsub : ∀ c ∈ a.toList, c ∈ b.toList) : IsQuotable a where
  no_newline := fun hc => h.no_newline (hsub _ hc)
  no_return := fun hc => h.no_return (hsub _ hc)
  no_quote := fun hc => h.no_quote (hsub _ hc)

/-- A directive is put on one line when its path can be. -/
theorem isPlainLine_directive {path : String} (h : IsPlainLine path) :
    IsPlainLine (directive path) := by
  have hopen : IsPlainLine "#include \"" := isPlainLine_of_eq (_ :: _) rfl (by decide) (by decide)
  have hclose : IsPlainLine "\"" := isPlainLine_of_eq (_ :: _) rfl (by decide) (by decide)
  exact (hopen.append h).append hclose

theorem isDirective_directive (path : String) : isDirective (directive path).toList = true := by
  rw [isDirective, List.isPrefixOf_iff_prefix, directive, String.append_assoc,
    String.toList_append]
  exact List.IsPrefix.trans ⟨[' ', '"'], rfl⟩ (List.prefix_append _ _)

/-! ## Which drivers are well formed -/

/-- The path of the distance fragment is the file name under which a store keeps it, in the
directory of the includes. -/
theorem includePath_sdfStem (s : Store) (name : String) :
    s.settings.includePath (sdfStem name) = s.settings.includeRoot ++ s.sdfFile name := by
  rw [Settings.includePath, Store.sdfFile, String.append_assoc, String.append_assoc,
    String.append_assoc]

/-- Three of the lines are directives. -/
theorem filter_driverLines (settings : Settings) (name : String) :
    ((driverLines settings name).map String.toList ++ [[]]).filter isDirective =
      [settings.includePath settings.libraryInclude, settings.includePath (sdfStem name),
        settings.includePath settings.driverInclude].map fun path => (directive path).toList := by
  have hplain : ∀ l ∈ ["", "struct SDF \x7b", "SDFractal library;", "float3 outputColor;",
      "\x7d;"], isDirective l.toList = false := by decide
  simp only [driverLines, List.map_cons, List.map_nil, List.cons_append, List.nil_append,
    List.filter_cons, isDirective_directive, if_true]
  rw [hplain "" (by decide), hplain "struct SDF \x7b" (by decide),
    hplain "SDFractal library;" (by decide), hplain "float3 outputColor;" (by decide),
    hplain "\x7d;" (by decide)]
  rfl

/-- With the default settings an include path can be quoted when its stem can. -/
theorem isQuotable_includePath_iff {stem : String} :
    IsQuotable ((default : Settings).includePath stem) ↔ IsQuotable stem := by
  have hroot : IsQuotable (default : Settings).includeRoot :=
    isQuotable_of_eq (_ :: _) rfl (by decide) (by decide) (by decide)
  have hdot : IsQuotable "." := isQuotable_of_eq (_ :: _) rfl (by decide) (by decide) (by decide)
  have hext : IsQuotable (default : Settings).fragmentExt :=
    isQuotable_of_eq (_ :: _) rfl (by decide) (by decide) (by decide)
  constructor
  · intro h
    refine h.of_subset fun c hc => ?_
    simp only [Settings.includePath, String.toList_append, List.mem_append]
    exact .inl (.inl (.inr hc))
  · intro h
    exact ((hroot.append h).append hdot).append hext

theorem isQuotable_sdfStem_iff {name : String} : IsQuotable (sdfStem name) ↔ IsQuotable name := by
  have hsuffix : IsQuotable "SDF" :=
    isQuotable_of_eq (_ :: _) rfl (by decide) (by decide) (by decide)
  constructor
  · intro h
    refine h.of_subset fun c hc => ?_
    rw [sdfStem, String.toList_append]
    exact List.mem_append_left _ hc
  · intro h
    exact h.append hsuffix

/-- **A driver is well formed when the name can be quoted on one line**, and only then. -/
theorem wellFormed_driver_iff {s : Store} (hs : s.settings = default) (name : String) :
    WellFormed s.settings name (s.sdfFile name) (driverCode s.settings name).text ↔
      IsQuotable name := by
  have hstems : IsQuotable (default : Settings).libraryInclude ∧
      IsQuotable (default : Settings).driverInclude :=
    ⟨isQuotable_of_eq (_ :: _) rfl (by decide) (by decide) (by decide),
      isQuotable_of_eq (_ :: _) rfl (by decide) (by decide) (by decide)⟩
  have hlibrary := isQuotable_includePath_iff.mpr hstems.1
  have hmarcher := isQuotable_includePath_iff.mpr hstems.2
  constructor
  · rintro ⟨-, library, marcher, hincludes⟩
    rw [← isQuotable_sdfStem_iff, ← isQuotable_includePath_iff, ← hs, includePath_sdfStem]
    exact hincludes.quotable _ (by simp)
  · intro h
    have hpath := isQuotable_includePath_iff.mpr (isQuotable_sdfStem_iff.mpr h)
    have htemplate : fields '\n' (driverCode s.settings name).text.toList =
        (driverLines s.settings name).map String.toList ++ [[]] := by
      rw [toList_driverCode]
      refine fields_ended fun l hl => ?_
      rw [hs] at hl
      simp only [driverLines, List.mem_cons, List.not_mem_nil, or_false] at hl
      rcases hl with rfl | rfl | rfl | rfl | rfl | rfl | rfl | rfl | rfl | rfl
      · exact (isPlainLine_directive hlibrary.toIsPlainLine).no_newline
      · decide
      · decide
      · decide
      · decide
      · decide
      · exact (isPlainLine_directive hpath.toIsPlainLine).no_newline
      · decide
      · decide
      · exact (isPlainLine_directive hmarcher.toIsPlainLine).no_newline
    refine ⟨htemplate, s.settings.includePath s.settings.libraryInclude,
      s.settings.includePath s.settings.driverInclude, ?_, ?_⟩
    · rw [htemplate, filter_driverLines, includePath_sdfStem]
    · rw [← includePath_sdfStem, hs]
      simpa using ⟨hlibrary, hpath, hmarcher⟩

end Fragment

/-! ## The file that is included -/

/-- The distance fragment of a preset is stored under the file name that belongs to it. -/
theorem Store.sdf_of_writeFragments {s : Store} (hs : s.settings.SlashFree) {d d' : Disk}
    {name driver sdf : String} {p : ArtifactPaths}
    (h : (s.writeFragments name driver sdf).Yields d p d') :
    s.root.nameIn? p.sdf = some (s.sdfFile name) ∧ d'.readFile p.sdf = .ok sdf.toUTF8 := by
  obtain ⟨rfl, dir, hw⟩ := Store.writeFragments_yields hs h
  have hname := Store.isEntryName_sdfFile hs hw.valid
  refine ⟨Path.nameIn?_join hname, ?_⟩
  refine (readFile_join_eq_ok_iff (hw.patched.directoryAt hw.root) hname).mpr
    ⟨hw.sdfReplaceable.fits, hw.patched.entry_of_written ?_⟩
  rw [lookup_cons_patch, if_pos rfl]

namespace Fragment

/-- **The form of a driver.**  With the default settings, whatever the configuration and its name:
the driver is the ten lines of the template, each ended by a newline; where the fragments are
written, the distance fragment is stored in the store's directory under its own file name; and cut
at its newlines the driver is well formed, with that file name under the include root in its second
directive, exactly when the name holds neither a double quote nor a line break. -/
theorem driver_form (s : Store) (hs : s.settings = default) (c : Config) (strict : Bool)
    (g : Generated) (hg : generate c s.settings strict = .ok g) :
    g.driver.toList = ended (driverLines s.settings c.name) ∧
    (∀ d p d', (s.writeFragments c.name g.driver g.sdf).Yields d p d' →
      s.root.nameIn? p.sdf = some (s.sdfFile c.name) ∧ d'.readFile p.sdf = .ok g.sdf.toUTF8) ∧
    (WellFormed s.settings c.name (s.sdfFile c.name) g.driver ↔
      '"' ∉ c.name.toList ∧ '\n' ∉ c.name.toList ∧ '\r' ∉ c.name.toList) := by
  have hslash : s.settings.SlashFree := hs ▸ Settings.plain_default.slashFree
  rw [(generate_texts hg).1]
  refine ⟨toList_driverCode s.settings c.name, ?_, ?_⟩
  · intro d p d' h
    exact Store.sdf_of_writeFragments hslash h
  · rw [wellFormed_driver_iff hs]
    constructor
    · intro h
      exact ⟨h.no_quote, h.no_newline, h.no_return⟩
    · rintro ⟨hquote, hnewline, hreturn⟩
      exact ⟨⟨hnewline, hreturn⟩, hquote⟩

/-- The driver of an ordinary name. -/
theorem driver_form_foo :
    ∃ g, generate ⟨"Foo", [.boxFold], .box⟩ default true = .ok g ∧
      WellFormed default "Foo" "FooSDF.ush" g.driver := by
  obtain ⟨g, hg⟩ : ∃ g, generate ⟨"Foo", [.boxFold], .box⟩ default true = .ok g := ⟨_, rfl⟩
  obtain ⟨-, -, hform⟩ := driver_form ⟨⟨"shaders"⟩, default⟩ rfl _ true g hg
  exact ⟨g, hg, hform.mpr (by decide)⟩

/-- A name may hold a double quote or a newline: the path of the distance fragment then ends too
early, or the directive does. -/
theorem driver_of_unquotable_name :
    (PresetName.check "a\"b" = .ok () ∧
      ¬ WellFormed default "a\"b" "a\"bSDF.ush" (driverCode default "a\"b").text) ∧
    PresetName.check "a\nb" = .ok () ∧
      ¬ WellFormed default "a\nb" "a\nbSDF.ush" (driverCode default "a\nb").text := by
  refine ⟨⟨by decide, fun h => ?_⟩, by decide, fun h => ?_⟩
  · have hquotable := (wellFormed_driver_iff (s := ⟨⟨"shaders"⟩, default⟩) rfl "a\"b").mp h
    exact absurd hquotable.no_quote (by decide)
  · have hquotable := (wellFormed_driver_iff (s := ⟨⟨"shaders"⟩, default⟩) rfl "a\nb").mp h
    exact absurd hquotable.no_newline (by decide)

end Fragment

end FractalShader
