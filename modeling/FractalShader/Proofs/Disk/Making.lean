import FractalShader.Proofs.Disk.Entry
import FractalShader.Proofs.Path.Ancestors

/-!
# Making directories

Making a directory and all that lead to it puts directories where nothing stood
and changes nothing else, whether it succeeds or not.

* `Made` — one disk is another with such directories;
* `made_makeDirectories` — what was made, whatever the result;
* `directoryAt_of_makeDirectories` — after success the path leads to a directory;
* `makeDirectories_eq_of_directoryAt` — a directory that is there is left as it is;
* `directoryAt_before_makeDirectories` — one that is not was missing;
* `Made.entry_eq_none` — a directory that was not there before has no entry.
-/

namespace FractalShader.Disk

/-- The disk `d'` is `d` with directories where nothing stood, each of which one of the paths `as`
leads to. -/
structure Made (d : Disk) (as : List Path) (d' : Disk) : Prop where
  home : d'.home = d.home
  place : ∀ q, d'.node? q = d.node? q ∨
    d.node? q = none ∧ d'.node? q = some .directory ∧ ∃ a ∈ as, d'.directoryAt a = .ok q

namespace Made

variable {d d₁ d₂ : Disk} {as bs : List Path}

theorem refl (d : Disk) (as : List Path) : d.Made as d := ⟨rfl, fun _ => .inl rfl⟩

theorem keeps (h : d.Made as d₁) : d.Keeps d₁ := by
  refine ⟨h.home, ?_⟩
  intro q hq
  rcases h.place q with heq | ⟨hn, -, -⟩
  · rw [heq, hq]
  · rw [hn] at hq
    exact absurd hq (by simp)

theorem mono (h : d.Made as d₁) (hsub : ∀ a ∈ as, a ∈ bs) : d.Made bs d₁ := by
  refine ⟨h.home, ?_⟩
  intro q
  rcases h.place q with heq | ⟨hn, hd, a, ha, hq⟩
  · exact .inl heq
  · exact .inr ⟨hn, hd, a, hsub a ha, hq⟩

theorem trans (h₁ : d.Made as d₁) (h₂ : d₁.Made as d₂) : d.Made as d₂ := by
  refine ⟨h₂.home.trans h₁.home, ?_⟩
  intro q
  rcases h₂.place q with heq₂ | ⟨hn₂, hd₂, hled₂⟩
  · rcases h₁.place q with heq₁ | ⟨hn₁, hd₁, a, ha, hq⟩
    · exact .inl (heq₂.trans heq₁)
    · exact .inr ⟨hn₁, heq₂.trans hd₁, a, ha, directoryAt_keeps h₂.keeps hq⟩
  · rcases h₁.place q with heq₁ | ⟨-, hd₁, -⟩
    · exact .inr ⟨heq₁ ▸ hn₂, hd₂, hled₂⟩
    · rw [hd₁] at hn₂
      exact absurd hn₂ (by simp)

end Made

/-! ## One directory -/

/-- A directory that is made is where its path leads. -/
theorem made_makeDirectory {d d' : Disk} {p : Path} (h : d.makeDirectory p = .ok d') :
    d.Made [p] d' ∧ ∃ q, d'.directoryAt p = .ok q := by
  unfold makeDirectory at h
  cases hl : d.locate p with
  | error e => simp [hl] at h
  | ok spot =>
    rcases locate_eq_ok hl with ⟨-, rfl⟩ | ⟨xs, last, dir, hps, hw, hspot⟩
    · simp [hl] at h
    · by_cases hhere : last = "."
      · simp [hl, hspot, hhere] at h
      · by_cases hup : last = ".."
        · simp [hl, hspot, hup] at h
        · simp only [hhere, hup, if_false] at hspot
          subst hspot
          simp only [hl] at h
          cases hlook : d.lookUp dir last with
          | error e => simp [hlook] at h
          | ok x =>
            cases x with
            | some x => simp [hlook] at h
            | none =>
              simp only [hlook, Except.ok.injEq] at h
              obtain ⟨hsize, hnone⟩ := lookUp_eq_ok_iff.mp hlook
              have hdir : d.node? dir = some .directory := walk_directory (d.node?_startOf p) hw
              have had : d.admits last dir .directory = true := by
                simp [admits, hdir, Node.isDirectory]
              have hnode : ∀ q, d'.node? q =
                  if q = last :: dir then some .directory else d.node? q := by
                intro q
                rw [← h, node?_put had]
              have hkeeps : d.Keeps d' := by
                refine ⟨by rw [← h, home_put], ?_⟩
                intro q hq
                rw [hnode q]
                split
                · rfl
                · exact hq
              have hat : d'.directoryAt p = .ok (last :: dir) := by
                have hlook' : d'.lookUp dir last = .ok (some .directory) :=
                  lookUp_eq_ok_iff.mpr ⟨hsize, by rw [hnode, if_pos rfl]⟩
                rw [directoryAt, hps, startOf_keeps hkeeps, walk_concat last (walk_keeps hkeeps hw),
                  enter, if_neg hhere, if_neg hup, hlook']
              refine ⟨⟨hkeeps.home, ?_⟩, _, hat⟩
              intro q
              by_cases hq : q = last :: dir
              · rw [hq]
                exact .inr ⟨hnone, by rw [hnode, if_pos rfl], p, List.mem_singleton_self p, hat⟩
              · exact .inl (by rw [hnode, if_neg hq])

theorem directoryAt_of_isDirectory {d : Disk} {p : Path} (h : d.isDirectory p = true) :
    ∃ q, d.directoryAt p = .ok q := by
  unfold isDirectory at h
  split at h
  · next q hf => exact ⟨q, directoryAt_of_find hf⟩
  · exact absurd h (by simp)

theorem isDirectory_of_directoryAt {d : Disk} {p : Path} {q : Place} (hf : p.fault? = none)
    (h : d.directoryAt p = .ok q) : d.isDirectory p = true := by
  rw [isDirectory, find_of_directoryAt hf h]

/-- Where a directory stands, none is made. -/
theorem makeDirectory_of_directoryAt {d : Disk} {p : Path} {q : Place}
    (h : d.directoryAt p = .ok q) :
    d.makeDirectory p = .error (p.fault?.getD .fileExists) := by
  cases hf : p.fault? with
  | some e => rw [makeDirectory, locate_of_fault hf]; rfl
  | none =>
    have hfind := find_of_directoryAt hf h
    unfold find at hfind
    unfold makeDirectory
    split at hfind
    · exact absurd hfind (by simp)
    · rfl
    · split at hfind
      · exact absurd hfind (by simp)
      · exact absurd hfind (by simp)
      · next hlook => rw [hlook]; rfl
      · split at hfind <;> exact absurd hfind (by simp)

/-! ## All that lead to one -/

theorem made_makeLineage (d : Disk) (ps : List Path) : d.Made ps (d.makeLineage ps).1 := by
  induction ps with
  | nil => exact Made.refl d []
  | cons p above ih =>
    have habove : ∀ a ∈ above, a ∈ p :: above := fun a ha => List.mem_cons_of_mem p ha
    have hself : ∀ a ∈ [p], a ∈ p :: above := by simp
    unfold makeLineage
    split
    · next hm => exact (made_makeDirectory hm).1.mono hself
    · split
      · next hb =>
        rw [hb] at ih
        exact ih.mono habove
      · next hb =>
        rw [hb] at ih
        split
        · next hm => exact (ih.mono habove).trans ((made_makeDirectory hm).1.mono hself)
        · exact ih.mono habove
    · exact Made.refl d _

theorem made_makeDirectories (d : Disk) (p : Path) :
    d.Made p.ancestors (d.makeDirectories p).1 :=
  d.made_makeLineage p.ancestors

theorem directoryAt_of_makeLineage {d d' : Disk} {p : Path} {above : List Path}
    (h : d.makeLineage (p :: above) = (d', .ok ())) : ∃ q, d'.directoryAt p = .ok q := by
  unfold makeLineage at h
  split at h
  · next hm =>
    cases h
    exact (made_makeDirectory hm).2
  · split at h
    · exact absurd h (by simp)
    · split at h
      · next hm =>
        cases h
        exact (made_makeDirectory hm).2
      · split at h
        · next hc =>
          cases h
          exact directoryAt_of_isDirectory hc.2
        · exact absurd h (by simp)
  · split at h
    · next hc =>
      cases h
      exact directoryAt_of_isDirectory hc.2
    · exact absurd h (by simp)

/-- Steps back to where one is do not matter. -/
theorem walk_filter_here (d : Disk) (dir : Place) (xs : List String) :
    d.walk dir (xs.filter (· ≠ ".")) = d.walk dir xs := by
  induction xs generalizing dir with
  | nil => rfl
  | cons x xs ih =>
    by_cases hx : x = "."
    · rw [hx, List.filter_cons_of_neg (by simp), ih]
      rfl
    · rw [List.filter_cons_of_pos (by simpa using hx), walk, walk]
      cases d.enter dir x with
      | error e => rfl
      | ok next => exact ih next

theorem directoryAt_eq_walk_steps (d : Disk) (p : Path) :
    d.directoryAt p = d.walk (d.startOf p) p.steps := by
  rw [directoryAt, Path.steps, walk_filter_here]

/-- When the directories of a path are made, the path leads to one. -/
theorem directoryAt_of_makeDirectories {d d' : Disk} {p : Path}
    (h : d.makeDirectories p = (d', .ok ())) : ∃ q, d'.directoryAt p = .ok q := by
  unfold makeDirectories at h
  cases ha : p.ancestors with
  | nil =>
    refine ⟨d'.startOf p, ?_⟩
    rw [directoryAt_eq_walk_steps, Path.steps_of_ancestors_nil ha]
    rfl
  | cons a above =>
    rw [ha] at h
    obtain ⟨rfl, -⟩ := Path.ancestors_cons ha
    exact directoryAt_of_makeLineage h

/-- Where a directory is there already, the disk is left as it is, and the spelling of the path
decides the answer. -/
theorem makeDirectories_eq_of_directoryAt {d : Disk} {p : Path} {q : Place}
    (h : d.directoryAt p = .ok q) :
    d.makeDirectories p = (d, match p.ancestors, p.fault? with
      | _ :: _, some e => .error e
      | _, _ => .ok ()) := by
  unfold makeDirectories
  cases ha : p.ancestors with
  | nil => rfl
  | cons a above =>
    obtain ⟨rfl, hne⟩ := Path.ancestors_cons ha
    have htext := Path.text_ne_empty_of_components hne
    have hm := makeDirectory_of_directoryAt h
    cases hf : a.fault? with
    | none =>
      rw [hf] at hm
      rw [makeLineage, hm]
      simp [isDirectory_of_directoryAt hf h]
    | some e =>
      have he : e = .nulInPath ∨ e = .nameTooLong := by
        unfold Path.fault? at hf
        rw [if_neg htext] at hf
        split at hf
        · exact .inl (Option.some.inj hf).symm
        · split at hf
          · exact .inr (Option.some.inj hf).symm
          · exact absurd hf (by simp)
      rw [hf] at hm
      rw [makeLineage, hm]
      rcases he with rfl | rfl <;> simp

/-- A directory that is there already is left as it is. -/
theorem makeDirectories_of_directoryAt {d : Disk} {p : Path} {q : Place}
    (h : d.directoryAt p = .ok q) :
    (d.makeDirectories p).1 = d ∧
      (p.fault? = none ∨ p.text = "" → (d.makeDirectories p).2 = .ok ()) := by
  rw [makeDirectories_eq_of_directoryAt h]
  refine ⟨rfl, ?_⟩
  rintro (hf | htext)
  · rw [hf]
    cases p.ancestors <;> rfl
  · obtain rfl : p = ⟨""⟩ := congrArg Path.mk htext
    rfl

/-! ## Before a directory is made -/

/-- A path that cannot be followed to its last piece cannot be followed at all. -/
theorem directoryAt_of_locate_error {d : Disk} {p : Path} {e : OsError} (hf : p.fault? = none)
    (h : d.locate p = .error e) : d.directoryAt p = .error e := by
  rw [locate_of_usable hf] at h
  cases hl : (pieces p.text.toList).getLast? with
  | none => simp [hl] at h
  | some last =>
    obtain ⟨xs, hxs⟩ := List.getLast?_eq_some_iff.mp hl
    rw [directoryAt, hxs, walk_append]
    simp only [hxs, List.getLast?_concat, List.dropLast_concat] at h
    cases hw : d.walk (d.startOf p) xs with
    | error e' => simpa [hw] using h
    | ok dir => simp [hw] at h

/-- A path that ends in a name is that of a directory where the entry of that name is one. -/
theorem directoryAt_of_locate_entry {d : Disk} {p : Path} {dir : Place} {name : String}
    {slash : Bool} (h : d.locate p = .ok (.entry dir name slash)) :
    d.directoryAt p = match d.lookUp dir name with
      | .error e => .error e
      | .ok none => .error .notFound
      | .ok (some (.file _)) => .error .notADirectory
      | .ok (some .directory) => .ok (name :: dir) := by
  rcases locate_eq_ok h with ⟨-, hspot⟩ | ⟨xs, last, place, hps, hw, hspot⟩
  · exact absurd hspot (by simp)
  · by_cases hhere : last = "."
    · simp [hhere] at hspot
    · by_cases hup : last = ".."
      · simp [hup] at hspot
      · simp only [hhere, hup, if_false, Spot.entry.injEq] at hspot
        obtain ⟨rfl, rfl, -⟩ := hspot
        rw [directoryAt, hps, walk_concat name hw]
        unfold enter
        rcases d.lookUp dir name with e | _ | _ | content <;> simp [hhere, hup]

/-- Nothing is found where a piece of the path is missing. -/
theorem find_of_missing {d : Disk} {p : Path} (hf : p.fault? = none)
    (h : d.directoryAt p = .error .notFound) : d.find p = .error .notFound := by
  cases hl : d.locate p with
  | error e =>
    rw [directoryAt_of_locate_error hf hl] at h
    rw [find, hl, Except.error.inj h]
  | ok spot =>
    cases spot with
    | directory place =>
      have hfind : d.find p = .ok (place, .directory) := by rw [find, hl]
      rw [directoryAt_of_find hfind] at h
      exact absurd h (by simp)
    | entry dir name slash =>
      rw [directoryAt_of_locate_entry hl] at h
      unfold find
      simp only [hl]
      split at h
      · next e hlook => rw [hlook, Except.error.inj h]
      · next hlook => rw [hlook]
      · exact absurd h (by simp)
      · exact absurd h (by simp)

/-- Where an entry is missing, its directory is there without it or missing itself. -/
theorem find_of_missing_entry {d : Disk} {p : Path} {file : String} (hf : IsEntryName file)
    (h : d.find (p.join file) = .error .notFound) :
    (∃ dir, d.find p = .ok (dir, .directory)) ∨ d.find p = .error .notFound := by
  by_cases hne : p.text = ""
  · obtain rfl : p = ⟨""⟩ := congrArg Path.mk hne
    exact .inr rfl
  · have hjoined : (p.join file).fault? = none := by
      cases hfault : (p.join file).fault? with
      | none => rfl
      | some e =>
        rw [find, locate_of_fault hfault] at h
        obtain rfl := Except.error.inj h
        refine absurd ?_ (Path.entryFault?_ne_notFound (p := p) hf)
        rw [Path.entryFault?, hfault]
        rfl
    have hself := Path.fault?_of_fault?_join hf hne hjoined
    cases hd : d.directoryAt p with
    | ok dir => exact .inl ⟨dir, find_of_directoryAt hself hd⟩
    | error e =>
      rw [find, locate_join_of_error hd hf hjoined] at h
      obtain rfl := Except.error.inj h
      exact .inr (find_of_missing hself hd)

/-- A directory that can be made, or that could be if it were not for those that lead to it, is not
there. -/
theorem directoryAt_of_makeDirectory {d : Disk} {p : Path} (hne : p.text ≠ "")
    (h : (∃ d', d.makeDirectory p = .ok d') ∨ d.makeDirectory p = .error .notFound) :
    d.directoryAt p = .error .notFound := by
  unfold makeDirectory at h
  cases hl : d.locate p with
  | error e =>
    obtain rfl : e = .notFound := by simpa [hl] using h
    -- a path that is refused for its spelling is refused with another error
    have hf : p.fault? = none := by
      cases hf : p.fault? with
      | none => rfl
      | some e =>
        obtain rfl := Except.error.inj ((locate_of_fault hf).symm.trans hl)
        unfold Path.fault? at hf
        rw [if_neg hne] at hf
        split at hf
        · exact absurd hf (by simp)
        · split at hf <;> exact absurd hf (by simp)
    exact directoryAt_of_locate_error hf hl
  | ok spot =>
    cases spot with
    | directory place => simp [hl] at h
    | entry dir name slash =>
      rw [directoryAt_of_locate_entry hl]
      cases hlook : d.lookUp dir name with
      | error e =>
        obtain rfl : e = .notFound := by simpa [hl, hlook] using h
        unfold lookUp at hlook
        split at hlook <;> exact absurd hlook (by simp)
      | ok x =>
        cases x with
        | none => rfl
        | some x => simp [hl, hlook] at h

/-- Where the directories of a path can be made, the path leads to one already, or something on it
is missing. -/
theorem directoryAt_before_makeDirectories {d : Disk} {p : Path}
    (h : (d.makeDirectories p).2 = .ok ()) :
    (∃ q, d.directoryAt p = .ok q) ∨ d.directoryAt p = .error .notFound := by
  unfold makeDirectories at h
  cases ha : p.ancestors with
  | nil =>
    refine .inl ⟨d.startOf p, ?_⟩
    rw [directoryAt_eq_walk_steps, Path.steps_of_ancestors_nil ha]
    rfl
  | cons a above =>
    obtain ⟨rfl, hcomponents⟩ := Path.ancestors_cons ha
    have hne := Path.text_ne_empty_of_components hcomponents
    rw [ha] at h
    cases hm : d.makeDirectory a with
    | ok made => exact .inr (directoryAt_of_makeDirectory hne (.inl ⟨made, hm⟩))
    | error e =>
      by_cases he : e = .notFound
      · exact .inr (directoryAt_of_makeDirectory hne (.inr (he ▸ hm)))
      · have hdirectory : d.isDirectory a = true := by
          cases hdirectory : d.isDirectory a with
          | true => rfl
          | false =>
            rw [makeLineage, hm] at h
            cases e <;> simp [hdirectory] at h he
        exact .inl (directoryAt_of_isDirectory hdirectory)
/-! ## New directories are empty -/

/-- Without a step up, a walk ends below where it began. -/
theorem suffix_of_walk {d : Disk} {dir next : Place} {xs : List String} (hup : ".." ∉ xs)
    (h : d.walk dir xs = .ok next) : dir <:+ next := by
  induction xs generalizing dir with
  | nil => cases h; exact List.suffix_refl _
  | cons x xs ih =>
    simp only [List.mem_cons, not_or] at hup
    rw [walk] at h
    split at h
    · next mid hx =>
      have hmid : dir <:+ mid := by
        unfold enter at hx
        rw [if_neg (Ne.symm hup.1)] at hx
        split at hx
        · cases hx; exact List.suffix_refl _
        · split at hx
          · exact absurd hx (by simp)
          · exact absurd hx (by simp)
          · exact absurd hx (by simp)
          · cases hx; exact List.suffix_cons x dir
      exact hmid.trans (ih hup.2 h)
    · exact absurd h (by simp)

/-- Without a step up, a walk that ends in a directory of another disk can be made there too. -/
theorem walk_of_directory {d d' : Disk} {dir next : Place} {xs : List String} (hup : ".." ∉ xs)
    (h : d'.walk dir xs = .ok next) (hnext : d.node? next = some .directory) :
    d.walk dir xs = .ok next := by
  induction xs generalizing dir with
  | nil => exact h
  | cons x xs ih =>
    simp only [List.mem_cons, not_or] at hup
    rw [walk] at h ⊢
    split at h
    · next mid hx =>
      have hmid := node?_of_suffix (suffix_of_walk hup.2 h) hnext
      have hx' : d.enter dir x = .ok mid := by
        unfold enter at hx ⊢
        rw [if_neg (Ne.symm hup.1)] at hx ⊢
        split at hx
        · next hhere => rwa [if_pos hhere]
        · next hhere =>
          rw [if_neg hhere]
          split at hx
          · exact absurd hx (by simp)
          · exact absurd hx (by simp)
          · exact absurd hx (by simp)
          · next hlook =>
            cases hx
            rw [lookUp_eq_ok_iff.mpr ⟨(lookUp_eq_ok_iff.mp hlook).1, hmid⟩]
      rw [hx']
      exact ih hup.2 h
    · exact absurd h (by simp)

/-- A directory to which a path leads only after it was made has no entry. -/
theorem Made.entry_eq_none {d d' : Disk} {p : Path} {dir : Place} (h : d.Made p.ancestors d')
    (hup : ".." ∉ pieces p.text.toList) (hbefore : ∀ q, d.directoryAt p ≠ .ok q)
    (hafter : d'.directoryAt p = .ok dir) (f : String) : d'.node? (f :: dir) = none := by
  have hsteps : ".." ∉ p.steps := fun hc => hup (List.mem_filter.mp hc).1
  rw [directoryAt_eq_walk_steps] at hafter
  rcases h.place (f :: dir) with heq | ⟨-, -, a, ha, hled⟩
  · -- an old entry would have stood in an old directory
    cases hn : d'.node? (f :: dir) with
    | none => rfl
    | some x =>
      have hdir : d.node? dir = some .directory := by
        refine @node?_parent d f dir ?_
        rw [← heq, hn]
        simp
      exfalso
      apply hbefore dir
      rw [directoryAt_eq_walk_steps, ← startOf_keeps h.keeps]
      exact walk_of_directory hsteps hafter hdir
  · -- a new one is an ancestor, so it cannot be below
    obtain ⟨habs, rest, hrest⟩ := Path.ancestor_steps ha
    have hstart : d'.startOf a = d'.startOf p := by rw [startOf, startOf, habs]
    rw [directoryAt_eq_walk_steps, hstart] at hled
    rw [← hrest, walk_append, hled] at hafter
    have hlow : f :: dir <:+ dir := by
      refine suffix_of_walk (fun hc => hsteps ?_) hafter
      rw [← hrest]
      exact List.mem_append_right _ hc
    have hlen := hlow.length_le
    rw [List.length_cons] at hlen
    omega

end FractalShader.Disk
