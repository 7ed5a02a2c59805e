import FractalShader.Proofs.Store.Request
import FractalShader.Proofs.Store.Tidy

/-!
# Runs of requests

A run is any sequence of requests to a store and to the session over it, with
whatever results.  What was published under each name is written into a
*ledger*, from the requests and from whether they succeeded alone, so that the
files of the store can be compared with it.

* `Ledger.after` — what a request adds to the ledger;
* `Run` — the sessions, disks and ledgers that requests lead to;
* `vacant_empty` — where a run starts on an empty disk, the store holds nothing.
-/

namespace FractalShader

open FractalShader.Disk

/-! ## Ledgers -/

/-- For each name the configuration that was published last, unless it has been removed since. -/
abbrev Ledger := String → Option Config

namespace Ledger

/-- Nothing has been published. -/
def blank : Ledger := fun _ => none

/-- The ledger with another entry for `name`. -/
def set (ledger : Ledger) (name : String) (c : Option Config) : Ledger := fun m =>
  if m = name then c else ledger m

theorem set_self (ledger : Ledger) (name : String) (c : Option Config) :
    ledger.set name c name = c := if_pos rfl

theorem set_other {ledger : Ledger} {name m : String} {c : Option Config} (h : m ≠ name) :
    ledger.set name c m = ledger m := if_neg h

/-- To clear an entry that is not there is to leave the ledger as it is. -/
theorem set_none {ledger : Ledger} {name : String} (h : ledger name = none) :
    ledger.set name none = ledger := by
  funext m
  by_cases hm : m = name
  · rw [hm, set_self, h]
  · rw [set_other hm]

/-- The ledger after a request, which was asked with the working configuration `working`. -/
def after (ledger : Ledger) (working : Config) (succeeded : Bool) : Session.Request → Ledger
  | .store (.publish c _) => if succeeded then ledger.set c.name (some c) else ledger
  | .command (.generate _) => if succeeded then ledger.set working.name (some working) else ledger
  | .store (.remove name) => ledger.set name none
  | _ => ledger

end Ledger

/-! ## Runs -/

/-- Requests that keep to whole presets: no fragments and no documents on their own, and only what
is listed is removed. -/
def Store.Permits (s : Store) (d : Disk) : Session.Request → Prop
  | .store (.save _) => False
  | .store (.writeFragments _ _ _) => False
  | .store (.remove name) => s.Lists d name
  | _ => True

/-- What permitted requests to the store `s` lead to from the disk `d₀`, in whatever order and
with whatever results: the session, the disk and the ledger. -/
inductive Run (s : Store) (d₀ : Disk) : Session → Disk → Ledger → Prop where
  | start : Run s d₀ (Session.start s) d₀ Ledger.blank
  | step {t : Session} {d : Disk} {ledger : Ledger} (r : Session.Request) :
      Run s d₀ t d ledger → s.Permits d r →
      Run s d₀ (t.serve d r).1 (t.serve d r).2.disk
        (ledger.after t.config (t.serve d r).2.result.isOk r)

/-! ## Where a run starts -/

/-- A path that has ordinary components only, and so is relative and not empty. -/
structure Path.Ordinary (p : Path) : Prop where
  ne_empty : p.text ≠ ""
  normal : ∀ c ∈ p.components, ∃ name, c = .normal name

/-- The name of an entry is an ordinary path. -/
theorem Path.ordinary_of_isEntryName {name : String} (h : IsEntryName name) :
    (⟨name⟩ : Path).Ordinary := by
  have hjoin : (⟨""⟩ : Path).join name = ⟨name⟩ := by
    rw [join, if_neg h.head?_ne_slash, if_pos rfl]
  refine ⟨h.ne_empty, ?_⟩
  intro c hc
  rw [← hjoin, components_join h] at hc
  exact ⟨name, List.mem_singleton.mp hc⟩

theorem Path.Ordinary.not_absolute {p : Path} (h : p.Ordinary) : p.isAbsolute = false := by
  rw [Bool.eq_false_iff]
  intro habs
  have hhead := (isAbsolute_iff p).mp habs
  obtain ⟨name, hname⟩ := h.normal _ (List.mem_of_head? hhead)
  exact absurd hname (by simp)

theorem Path.Ordinary.no_up {p : Path} (h : p.Ordinary) : ".." ∉ pieces p.text.toList := by
  intro hup
  have hstep : ".." ∈ p.steps := List.mem_filter.mpr ⟨hup, by decide⟩
  have hcomponent : Component.up ∈ p.components := by
    rw [components_eq]
    exact List.mem_append_right _ (List.mem_map.mpr ⟨"..", hstep, rfl⟩)
  obtain ⟨name, hname⟩ := h.normal _ hcomponent
  exact absurd hname (by simp)

/-- An ordinary path has a first step. -/
theorem Path.Ordinary.steps_ne_nil {p : Path} (h : p.Ordinary) : p.steps ≠ [] := by
  intro hsteps
  have hlead : p.lead = [] := by
    rcases p.lead_cases with hl | hl | hl
    · obtain ⟨name, hname⟩ := h.normal .root (by rw [components_eq, hl]; simp)
      exact absurd hname (by simp)
    · obtain ⟨name, hname⟩ := h.normal .here (by rw [components_eq, hl]; simp)
      exact absurd hname (by simp)
    · exact hl
  have hpieces : pieces p.text.toList = [] := by
    rw [lead, h.not_absolute] at hlead
    cases hps : pieces p.text.toList with
    | nil => rfl
    | cons x xs =>
      rw [steps, hps] at hsteps
      by_cases hx : x = "."
      · rw [hps, hx] at hlead
        exact absurd hlead (by simp)
      · rw [List.filter_cons_of_pos (by simpa using hx)] at hsteps
        exact absurd hsteps (by simp)
  -- only a text of slashes has no pieces, and that is absolute
  have hslash := eq_slash_of_pieces_eq_nil hpieces
  have habsolute := h.not_absolute
  rw [isAbsolute, decide_eq_false_iff_not] at habsolute
  obtain ⟨c, cs, hcs⟩ := List.exists_cons_of_ne_nil
    fun hc => h.ne_empty (String.toList_inj.mp hc)
  rw [hcs] at hslash habsolute
  exact habsolute (congrArg some (hslash c List.mem_cons_self))

/-- On a disk that holds its working directory alone, no store with an ordinary path is there. -/
theorem Store.vacant_empty {s : Store} (h : s.root.Ordinary) (home : Place) :
    s.Vacant (Disk.empty home) := by
  refine .inr ⟨?_, h.no_up⟩
  intro dir hd
  rw [directoryAt_eq_walk_steps, startOf, h.not_absolute] at hd
  obtain ⟨x, xs, hsteps⟩ := List.exists_cons_of_ne_nil h.steps_ne_nil
  have hx := Path.mem_steps (hsteps ▸ List.mem_cons_self : x ∈ s.root.steps)
  have hup : x ≠ ".." := by
    rintro rfl
    exact h.no_up (List.mem_filter.mp (hsteps ▸ List.mem_cons_self : ".." ∈ s.root.steps)).1
  have hnone : (Disk.empty home).node? (x :: home) = none := by
    rw [node?_empty, if_neg]
    intro hc
    have := hc.length_le
    rw [List.length_cons] at this
    omega
  rw [hsteps, walk, enter, if_neg hx.2.2, if_neg hup] at hd
  cases hlook : (Disk.empty home).lookUp home x with
  | error e =>
    simp only [Bool.false_eq_true, if_false] at hd
    rw [show (Disk.empty home).home = home from rfl, hlook] at hd
    exact absurd hd (by simp)
  | ok y =>
    have hy : y = none := (lookUp_eq_ok_iff.mp hlook).2.symm.trans hnone
    simp only [Bool.false_eq_true, if_false] at hd
    rw [show (Disk.empty home).home = home from rfl, hlook, hy] at hd
    exact absurd hd (by simp)

end FractalShader
