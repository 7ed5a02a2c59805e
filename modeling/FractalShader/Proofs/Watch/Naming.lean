import FractalShader.Proofs.Store.Refusal
import FractalShader.Proofs.Text.Order
import FractalShader.Proofs.Watch.Response

/-!
# Documents and names

The path of a document determines the name of its preset, whichever way the path is
spelled, and no other path gives that name.  What a report is about therefore depends
on nothing but the components of its paths.

* `Store.nameForDocument_eq_some_iff` — a name is read from the paths that have the
  components of its document's path, and from no others;
* `pairwise_affected`, `mem_affected_iff`, `affected_congr` — the presets a report is
  about, and what they depend on;
* `document_naming_exact` — these put together.
-/

namespace FractalShader

/-- **A document is known by its path.**  The extension may hold dots or look like the rest of the
name; that it holds no slash is enough. -/
theorem Store.nameForDocument_eq_some_iff {s : Store} (hext : '/' ∉ s.settings.documentExt.toList)
    {p : Path} {name : String} : s.nameForDocument p = some name ↔
      PresetName.IsValid name ∧ ∃ a, s.paths name = .ok a ∧
        p.components = a.document.components := by
  constructor
  · intro h
    obtain ⟨hv, hcomponents⟩ := nameForDocument_eq_some h
    exact ⟨hv, s.artifacts name, s.paths_of_isValid hv, hcomponents⟩
  · rintro ⟨hv, a, ha, hcomponents⟩
    obtain ⟨-, rfl⟩ := s.paths_eq_ok_iff.mp ha
    have hentry : IsEntryName (s.documentFile name) := isEntryName_dot hv.isStem_conf hext
    have hname : s.root.nameIn? p = some (s.documentFile name) := by
      rw [Path.nameIn?_eq_some_iff, hcomponents]
      exact Path.components_join hentry
    exact (nameForDocument_of_nameIn? hname).mpr ⟨rfl, hv⟩

namespace Watch

variable {s : Store} {c c' : Change} {name : String}

theorem pairwise_affected (s : Store) (c : Change) : (affected s c).Pairwise (· < ·) := by
  unfold affected
  split
  · exact pairwise_lt_ordered (nodup_eraseDups _)
  · exact List.Pairwise.nil

theorem affected_eq_nil (h : ¬ (c.kind = .create ∨ c.kind = .modify)) : affected s c = [] :=
  if_neg h

/-- The presets whose documents' paths are among those of the report. -/
theorem mem_affected_iff (hext : '/' ∉ s.settings.documentExt.toList) :
    name ∈ affected s c ↔ (c.kind = .create ∨ c.kind = .modify) ∧ PresetName.IsValid name ∧
      ∃ a, s.paths name = .ok a ∧ ∃ p ∈ c.paths, p.components = a.document.components := by
  simp only [mem_affected, Store.nameForDocument_eq_some_iff hext]
  constructor
  · rintro ⟨hkind, p, hp, hv, a, ha, hcomponents⟩
    exact ⟨hkind, hv, a, ha, p, hp, hcomponents⟩
  · rintro ⟨hkind, hv, a, ha, p, hp, hcomponents⟩
    exact ⟨hkind, p, hp, hv, a, ha, hcomponents⟩

/-- Two reports whose paths have the same components are about the same presets, in the same
order. -/
theorem affected_congr (hext : '/' ∉ s.settings.documentExt.toList) (hkind : c.kind = c'.kind)
    (hpaths : ∀ cs, (∃ p ∈ c.paths, p.components = cs) ↔ ∃ p ∈ c'.paths, p.components = cs) :
    affected s c = affected s c' := by
  refine eq_of_pairwise_lt (pairwise_affected s c) (pairwise_affected s c') ?_
  intro name
  simp only [mem_affected_iff hext, hkind, hpaths]

/-- **Documents are named invertibly.**  A path gives a name exactly when the name can be used and
the path has the components of its document.  A report about created or modified files is about
the names whose documents its paths are, each once, and any other report is about none; the order
of the paths, their spelling and their repetition do not count. -/
theorem document_naming_exact (hext : '/' ∉ s.settings.documentExt.toList) :
    (∀ p name, s.nameForDocument p = some name ↔ PresetName.IsValid name ∧
      ∃ a, s.paths name = .ok a ∧ p.components = a.document.components) ∧
    (∀ c : Change, (affected s c).Pairwise (· < ·) ∧
      (∀ name, name ∈ affected s c ↔ (c.kind = .create ∨ c.kind = .modify) ∧
        PresetName.IsValid name ∧ ∃ a, s.paths name = .ok a ∧
          ∃ p ∈ c.paths, p.components = a.document.components) ∧
      (¬ (c.kind = .create ∨ c.kind = .modify) → affected s c = [])) ∧
    ∀ c c' : Change, c.kind = c'.kind →
      (∀ cs, (∃ p ∈ c.paths, p.components = cs) ↔ ∃ p ∈ c'.paths, p.components = cs) →
      affected s c = affected s c' :=
  ⟨fun _ _ => Store.nameForDocument_eq_some_iff hext,
    fun c => ⟨pairwise_affected s c, fun _ => mem_affected_iff hext, affected_eq_nil⟩,
    fun _ _ => affected_congr hext⟩

/-- A store whose directory is spelled in a roundabout way, and whose documents have an extension
that looks like the end of another document's name. -/
def confStore : Store := ⟨⟨"./a//b/."⟩, { (default : Settings) with documentExt := "x_Conf.json" }⟩

theorem document_naming_exact_confStore :
    '/' ∉ confStore.settings.documentExt.toList ∧
      confStore.nameForDocument ⟨"./a/./b//Foo_Conf_Conf.x_Conf.json/."⟩ = some "Foo_Conf" ∧
      affected confStore ⟨.modify, [⟨"./a/b/Foo_Conf.x_Conf.json"⟩, ⟨"./a/b/../b/Bar.json"⟩]⟩ =
        affected confStore ⟨.modify, [⟨"./a//b/../b/Bar.json/"⟩, ⟨"./a/b//Foo_Conf.x_Conf.json"⟩,
          ⟨"././a/b/./Foo_Conf.x_Conf.json/"⟩]⟩ ∧
      "Foo" ∉ affected confStore ⟨.modify, [⟨"./a/b/../b/Foo_Conf.x_Conf.json"⟩]⟩ := by
  have hext : '/' ∉ confStore.settings.documentExt.toList := by decide
  obtain ⟨hname, hreport, hcongr⟩ := document_naming_exact (s := confStore) hext
  refine ⟨hext, ?_, ?_, ?_⟩
  · exact (hname _ _).mpr ⟨by decide, _, rfl, by decide +kernel⟩
  · refine hcongr _ _ rfl fun cs => ?_
    have hfoo : (⟨"./a/b//Foo_Conf.x_Conf.json"⟩ : Path).components =
        (⟨"./a/b/Foo_Conf.x_Conf.json"⟩ : Path).components := by decide +kernel
    have hagain : (⟨"././a/b/./Foo_Conf.x_Conf.json/"⟩ : Path).components =
        (⟨"./a/b/Foo_Conf.x_Conf.json"⟩ : Path).components := by decide +kernel
    have hbar : (⟨"./a//b/../b/Bar.json/"⟩ : Path).components =
        (⟨"./a/b/../b/Bar.json"⟩ : Path).components := by decide +kernel
    simp only [List.mem_cons, List.not_mem_nil, or_false, exists_eq_or_imp, exists_eq_left, hfoo,
      hagain, hbar, or_self]
    exact or_comm
  · intro hfoo
    obtain ⟨-, -, a, ha, p, hp, hcomponents⟩ := ((hreport _).2.1 _).mp hfoo
    cases ha
    cases List.mem_singleton.mp hp
    exact absurd hcomponents (by decide +kernel)

end Watch

end FractalShader
