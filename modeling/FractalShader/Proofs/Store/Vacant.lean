import FractalShader.Proofs.Disk.Reach
import FractalShader.Proofs.Store.Listing

/-!
# Extensions with a slash

A fragment extension may hold a slash, and then the fragments of a preset are
entries of a directory whose name starts with the preset's.  No operation makes
such a directory, so in a store that holds nothing no fragment is ever written,
and without fragments no document is.  A document extension with a slash names
no entry of the store's directory at all.  Either way nothing is listed.

* `pieces_dot` — the pieces of a name with any extension;
* `Vacant.locate_dot` — in a vacant store the path of a fragment leads to
  nothing, and cannot be that of a file when the extension holds a slash;
* `Barren` — an action that fails on a vacant store, which it leaves vacant;
* `Operated.slashFree_of_lists` — where a preset is listed, no extension holds a
  slash.
-/

namespace FractalShader

open FractalShader.Action FractalShader.Disk

/-! ## Names with any extension -/

/-- The first piece of a name with an extension is the name of an entry; when that is the only
piece of an extension with a slash, a slash stands at the end. -/
theorem pieces_dot {stem : String} (h : IsStem stem) (ext : String) :
    ∃ first rest, IsEntryName first ∧ pieces (stem ++ "." ++ ext).toList = first :: rest ∧
      ('/' ∈ ext.toList → rest = [] →
        (stem ++ "." ++ ext).toList.getLast? = some '/') := by
  by_cases hext : '/' ∈ ext.toList
  · obtain ⟨front, back, hsplit, hfront⟩ := List.eq_append_cons_of_mem hext
    have hname : IsEntryName (stem ++ "." ++ String.ofList front) :=
      isEntryName_dot h (by rwa [String.toList_ofList])
    have hlist : (stem ++ "." ++ ext).toList =
        (stem ++ "." ++ String.ofList front).toList ++ '/' :: back := by
      simp [hsplit]
    refine ⟨_, pieces back, hname, ?_, ?_⟩
    · rw [hlist, pieces_append_slash, hname.pieces_eq]
      rfl
    · intro _ hback
      rw [hlist, List.getLast?_append]
      have hall : ∀ c ∈ '/' :: back, c = '/' := by
        simpa using eq_slash_of_pieces_eq_nil hback
      obtain ⟨c, hc⟩ := Option.isSome_iff_exists.mp
        (List.getLast?_isSome.mpr (List.cons_ne_nil '/' back))
      rw [hc, hall c (List.mem_of_getLast? hc)]
      rfl
  · have hname : IsEntryName (stem ++ "." ++ ext) := isEntryName_dot h hext
    exact ⟨_, [], hname, hname.pieces_eq, fun hc => absurd hc hext⟩

/-- A name with an extension starts with no slash. -/
theorem head?_dot_ne_slash {stem : String} (h : IsStem stem) (ext : String) :
    (stem ++ "." ++ ext).toList.head? ≠ some '/' := by
  obtain ⟨c, cs, hcs⟩ := List.exists_cons_of_ne_nil
    fun hc => h.ne_empty (String.toList_inj.mp hc)
  have hc : c ≠ '/' := by
    rintro rfl
    exact h.no_slash (by rw [hcs]; exact List.mem_cons_self)
  simpa [hcs] using hc

namespace Store

variable {s : Store} {d d' d₀ : Disk} {dir : Place} {name : String}

/-! ## Nothing is there -/

/-- In a vacant store a path leads to no entry, and through no directory, of the store's own. -/
theorem Vacant.locate_join (h : s.Vacant d) {file first : String} {rest : List String} {spot : Spot}
    (hrel : file.toList.head? ≠ some '/') (hfirst : IsEntryName first)
    (hpieces : pieces file.toList = first :: rest) (hl : d.locate (s.root.join file) = .ok spot) :
    rest = [] ∧ ∃ dir, d.node? (first :: dir) = none ∧
      spot = .entry dir first (decide ((s.root.join file).text.toList.getLast? = some '/')) := by
  have hempty : ∀ dir, d.directoryAt s.root = .ok dir → d.node? (first :: dir) = none := by
    intro dir hd
    rcases h with ⟨dir', hd', hnone⟩ | habsent
    · obtain rfl := Except.ok.inj (hd'.symm.trans hd)
      exact hnone first
    · exact absurd hd (habsent.root dir)
  have hstart : d.startOf (s.root.join file) = d.startOf s.root := by
    rw [startOf, startOf, Path.isAbsolute_join_of_relative hrel]
  have hjoined := Path.pieces_join_of_relative (p := s.root) hrel
  rw [hpieces] at hjoined
  rcases locate_eq_ok hl with ⟨hnil, -⟩ | ⟨xs, last, dir, hps, hw, hspot⟩
  · rw [hjoined] at hnil
    exact absurd hnil (by simp)
  rw [hjoined] at hps
  rw [hstart] at hw
  rcases List.eq_nil_or_concat rest with hrest | ⟨front, z, hrest⟩
  · rw [hrest] at hps
    obtain ⟨rfl, hlast⟩ := List.append_inj' hps rfl
    obtain rfl := (List.cons.inj hlast).1
    rw [if_neg hfirst.ne_here, if_neg hfirst.ne_up] at hspot
    exact ⟨hrest, dir, hempty dir hw, hspot⟩
  · -- a second piece would need a directory under the first
    exfalso
    rw [hrest, List.concat_eq_append, ← List.cons_append, ← List.append_assoc] at hps
    obtain ⟨rfl, -⟩ := List.append_inj' hps rfl
    rw [walk_append] at hw
    split at hw
    · next next hd =>
      rw [walk, enter, if_neg hfirst.ne_here, if_neg hfirst.ne_up] at hw
      cases hlook : d.lookUp next first with
      | error e => simp [hlook] at hw
      | ok x =>
        obtain ⟨-, hx⟩ := lookUp_eq_ok_iff.mp hlook
        rw [hempty next hd] at hx
        simp [hlook, ← hx] at hw
    · exact absurd hw (by simp)

/-- In a vacant store there are no fragments and no documents, whatever the extension. -/
theorem Vacant.locate_dot (h : s.Vacant d) {stem ext : String} {spot : Spot} (hs : IsStem stem)
    (hl : d.locate (s.root.join (stem ++ "." ++ ext)) = .ok spot) :
    ∃ dir file slash, spot = .entry dir file slash ∧ d.node? (file :: dir) = none ∧
      ('/' ∈ ext.toList → slash = true) := by
  obtain ⟨first, rest, hfirst, hpieces, hlast⟩ := pieces_dot hs ext
  have hrel := head?_dot_ne_slash hs ext
  obtain ⟨hrest, dir, hnone, hspot⟩ := h.locate_join hrel hfirst hpieces hl
  refine ⟨dir, first, _, hspot, hnone, ?_⟩
  intro hext
  rw [decide_eq_true_eq, Path.text_join_of_relative hrel]
  split
  · exact hlast hext hrest
  · split <;> rw [String.toList_append, List.getLast?_append, hlast hext hrest, Option.some_or]

theorem Vacant.rooted (h : s.Vacant d) : s.Vacant (s.rooted d) := by
  rcases h with ⟨dir, hd, hempty⟩ | habsent
  · rw [rooted_of_directoryAt hd]
    exact .inl ⟨dir, hd, hempty⟩
  · by_cases hd : ∃ dir, (s.rooted d).directoryAt s.root = .ok dir
    · obtain ⟨dir, hd⟩ := hd
      exact .inl ⟨dir, hd, habsent.entry_eq_none hd⟩
    · exact .inr ⟨fun dir hc => hd ⟨dir, hc⟩, habsent.no_up⟩

/-! ## Actions that leave it so -/

/-- On a disk on which the store is vacant, the action fails, and leaves it vacant. -/
structure Barren {α : Type} (s : Store) (x : Action α) : Prop where
  keeps : x.Preserves s.Vacant
  fails : ∀ d a d', s.Vacant d → ¬ x.Yields d a d'

section Actions

variable {α β : Type} {x : Action α} {f : α → Action β}

/-- Nothing follows a barren action. -/
theorem Barren.bind (hx : s.Barren x) : s.Barren (x >>= f) where
  keeps := by
    intro d hd
    rcases x.yields_or_fails d with ⟨a, hy⟩ | ⟨e, hfail⟩
    · exact absurd hy (hx.fails d a _ hd)
    · rw [hfail.disk_bind]
      exact hx.keeps d hd
  fails := by
    intro d b d' hd hy
    obtain ⟨a, d₁, hy, -⟩ := yields_bind.mp hy
    exact hx.fails d a d₁ hd hy

theorem bind_barren (hx : x.Preserves s.Vacant)
    (hf : ∀ d a d', x.Yields d a d' → s.Barren (f a)) : s.Barren (x >>= f) where
  keeps := hx.bind fun d a d' hy => (hf d a d' hy).keeps
  fails := by
    intro d b d'' hd hy
    obtain ⟨a, d', hx', hy⟩ := yields_bind.mp hy
    exact (hf d a d' hx').fails d' b d'' (hx'.2 ▸ hx d hd) hy

end Actions

/-! ## Operations on a vacant store -/

theorem preserves_vacant_ensureRoot : s.ensureRoot.Preserves s.Vacant := fun _ hd => hd.rooted

theorem preserves_vacant_removeIfPresent {stem : String} (hs : IsStem stem) (ext : String) :
    (removeIfPresent (s.root.join (stem ++ "." ++ ext))).Preserves s.Vacant := by
  intro d hd
  rw [disk_removeIfPresent]
  · exact hd
  · intro d' hremove
    obtain ⟨dir, file, content, hl, hnode, -⟩ := removeFile_eq_ok hremove
    obtain ⟨dir', file', slash, hspot, hnone, -⟩ := hd.locate_dot hs hl
    obtain ⟨rfl, rfl, -⟩ := Spot.entry.inj hspot
    rw [hnode] at hnone
    exact absurd hnone (by simp)

theorem barren_writeText {stem ext : String} (hs : IsStem stem) (hext : '/' ∈ ext.toList)
    (text : String) :
    s.Barren (writeText (s.root.join (stem ++ "." ++ ext)) text) := by
  have hwrite : ∀ d d', s.Vacant d →
      d.writeFile (s.root.join (stem ++ "." ++ ext)) text.toUTF8 ≠ .ok d' := by
    intro d d' hd hw
    obtain ⟨dir, file, hl, -, -⟩ := writeFile_eq_ok hw
    obtain ⟨dir', file', slash, hspot, -, hslash⟩ := hd.locate_dot hs hl
    rw [hslash hext] at hspot
    exact absurd hspot (by simp)
  constructor
  · intro d hd
    rw [writeText, run_request, whole]
    cases hw : d.writeFile (s.root.join (stem ++ "." ++ ext)) text.toUTF8 with
    | error e => exact hd
    | ok d' => exact absurd hw (hwrite d d' hd)
  · intro d u d' hd hy
    rw [writeText, yields_request, whole] at hy
    cases hw : d.writeFile (s.root.join (stem ++ "." ++ ext)) text.toUTF8 with
    | error e =>
      rw [hw] at hy
      exact absurd hy (by simp)
    | ok d' => exact hwrite d d' hd hw

/-- With a slash in their extension, no fragments are written. -/
theorem barren_writeFragments (hext : '/' ∈ s.settings.fragmentExt.toList)
    (name driver sdf : String) : s.Barren (s.writeFragments name driver sdf) := by
  unfold writeFragments
  refine bind_barren (readsOnly_of _).preserves fun _ paths _ hpaths => ?_
  rw [yields_of, paths_eq_ok_iff] at hpaths
  obtain ⟨⟨hv, rfl⟩, -⟩ := hpaths
  refine bind_barren (s.readsOnly_checkCollision name).preserves fun _ _ _ _ => ?_
  refine bind_barren preserves_vacant_ensureRoot fun _ _ _ _ => ?_
  refine bind_barren (preserves_vacant_removeIfPresent hv.isStem _) fun _ _ _ _ => ?_
  refine bind_barren (preserves_vacant_removeIfPresent hv.isStem_sdf _) fun _ _ _ _ => ?_
  exact (barren_writeText hv.isStem hext driver).bind

/-- With a slash in the extension of fragments, nothing is published. -/
theorem barren_publish (hext : '/' ∈ s.settings.fragmentExt.toList) (c : Config) (strict : Bool) :
    s.Barren (s.publish c strict) := by
  unfold publish
  have hwrite : s.Barren (s.generate c strict >>= fun generated =>
      s.writeFragments c.name generated.driver generated.sdf >>= fun paths =>
        s.save c >>= fun _ =>
          emit (.published c.name c.operations.length c.terminal generated.warnings.length) >>=
            fun _ => pure (⟨paths, generated⟩ : Published)) :=
    bind_barren (s.readsOnly_generate c strict).preserves fun _ g _ _ =>
      (barren_writeFragments hext c.name g.driver g.sdf).bind
  cases c.hasUnknown with
  | false => exact hwrite
  | true => exact bind_barren (readsOnly_refuse _).preserves fun _ _ _ _ => hwrite

theorem barren_regenerate (hext : '/' ∈ s.settings.fragmentExt.toList) (name : String)
    (strict : Bool) : s.Barren (s.regenerate name strict) := by
  unfold regenerate
  refine bind_barren (s.readsOnly_readDocument name).preserves fun _ c _ _ => ?_
  refine bind_barren (s.readsOnly_generate c strict).preserves fun _ g _ _ => ?_
  exact (barren_writeFragments hext name g.driver g.sdf).bind

/-- From a vacant store there is nothing to remove. -/
theorem preserves_vacant_remove (s : Store) (name : String) :
    (s.remove name).Preserves s.Vacant := by
  unfold remove
  refine (readsOnly_of _).preserves.bind fun _ paths _ hpaths => ?_
  rw [yields_of, paths_eq_ok_iff] at hpaths
  obtain ⟨⟨hv, rfl⟩, -⟩ := hpaths
  refine (preserves_vacant_removeIfPresent hv.isStem _).bind fun _ _ _ _ => ?_
  refine (preserves_vacant_removeIfPresent hv.isStem_sdf _).bind fun _ _ _ _ => ?_
  refine (preserves_vacant_removeIfPresent hv.isStem_conf _).bind fun _ _ _ _ => ?_
  exact ((readsOnly_emit _).bind fun _ => readsOnly_pure _).preserves

theorem Operated.vacant (hext : '/' ∈ s.settings.fragmentExt.toList) (hvacant : s.Vacant d₀)
    (h : s.Operated d₀ d) : s.Vacant d := by
  induction h with
  | start => exact hvacant
  | publish c strict _ ih => exact (barren_publish hext c strict).keeps _ ih
  | regenerate name strict _ ih => exact (barren_regenerate hext name strict).keeps _ ih
  | remove name _ ih => exact s.preserves_vacant_remove name _ ih

/-! ## Listing -/

/-- What is listed has a document whose extension holds no slash. -/
theorem Lists.slash_not_mem (h : s.Lists d name) : '/' ∉ s.settings.documentExt.toList := by
  obtain ⟨entries, -, file, -, hname⟩ := lists_iff_entries.mp h
  simp only [nameForDocument, Option.bind_eq_bind, Option.bind_eq_some_iff] at hname
  obtain ⟨entry, hentry, stem, hstem, -⟩ := hname
  rw [Path.nameIn?_eq_some_iff] at hentry
  rw [dropSuffix?_eq_some_iff] at hstem
  have hplain := Path.slash_not_mem_component (hentry ▸ List.mem_append_right _ List.mem_cons_self)
  rw [hstem, String.toList_append, String.toList_append] at hplain
  exact fun hext => hplain (List.mem_append_right _ (List.mem_append_right _ hext))

/-- **Where a preset is listed, no extension holds a slash**, on whatever disk operations lead to
from one on which the store holds nothing. -/
theorem Operated.slashFree_of_lists (hvacant : s.Vacant d₀) (h : s.Operated d₀ d)
    (hl : s.Lists d name) : s.settings.SlashFree where
  fragment hext := (h.vacant hext hvacant).not_lists hl
  document := hl.slash_not_mem

end Store

end FractalShader
