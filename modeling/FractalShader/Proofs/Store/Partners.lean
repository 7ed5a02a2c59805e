import FractalShader.Proofs.Action.Refusal
import FractalShader.Store.Write

/-!
# The presets with which a fragment would be shared

Before fragments are written, the presets with which the name would share one are
asked for, one after another, and the name is refused beside the first that has a
document.

* `partners` — these presets, in the order in which they are asked for;
* `refuseBeside`, `checkCollision_eq` — the check as a walk over them;
* `refuseBeside_yields_iff`, `refuseBeside_fails` — when a walk ends well, and how
  it can end otherwise.
-/

namespace FractalShader.Store

open FractalShader.Action

/-! ## Partners -/

/-- The presets with which `name` would share a fragment, each with what is wrong with `name` beside
its document. -/
def partners (name : String) : List (String × NameFault) :=
  let bases := (dropSuffix? name "SDF").filter fun base => decide (PresetName.IsValid base)
  bases.toList.map (·, .takesFragment) ++ [(Fragment.sdfStem name, .takesDriver)]

theorem mem_partners {name : String} {p : String × NameFault} :
    p ∈ partners name ↔
      (name = Fragment.sdfStem p.1 ∧ PresetName.IsValid p.1 ∧ p.2 = .takesFragment) ∨
        (p.1 = Fragment.sdfStem name ∧ p.2 = .takesDriver) := by
  obtain ⟨m, fault⟩ := p
  simp only [partners, List.mem_append, List.mem_map, Option.mem_toList, Option.filter_eq_some_iff,
    dropSuffix?_eq_some_iff, decide_eq_true_eq, List.mem_singleton, Prod.mk.injEq]
  constructor
  · rintro (⟨base, ⟨hname, hbase⟩, rfl, rfl⟩ | hlonger)
    · exact .inl ⟨hname, hbase, rfl⟩
    · exact .inr hlonger
  · rintro (⟨hname, hbase, rfl⟩ | hlonger)
    · exact .inl ⟨m, ⟨hname, hbase⟩, rfl, rfl⟩
    · exact .inr hlonger

/-! ## The check as a walk -/

/-- Refuse `name` beside the first of these presets that has a document. -/
def refuseBeside (s : Store) (name : String) : List (String × NameFault) → Action Unit
  | [] => pure ()
  | (m, fault) :: rest => do
    if ← s.hasDocument m then refuse (.invalidName name fault)
    s.refuseBeside name rest

/-- The check for collisions is a walk over the partners of the name. -/
theorem checkCollision_eq (s : Store) (name : String) :
    s.checkCollision name = s.refuseBeside name (partners name) := by
  have hlast : ∀ m fault, s.refuseBeside name [(m, fault)] =
      (s.hasDocument m >>= fun present =>
        if present = true then refuse (.invalidName name fault) else pure ()) := by
    intro m fault
    refine congrArg (s.hasDocument m >>= ·) (funext fun present => ?_)
    cases present <;> rfl
  unfold checkCollision partners
  cases (dropSuffix? name "SDF").filter fun base => decide (PresetName.IsValid base) with
  | none => exact (hlast _ _).symm
  | some base =>
    refine congrArg (s.hasDocument base >>= ·) (funext fun present => ?_)
    cases present
    · exact (hlast _ _).symm
    · exact congrArg (refuse _ >>= ·) (funext fun _ => (hlast _ _).symm)

variable {s : Store} {d d' : Disk} {name : String} {ps : List (String × NameFault)}

theorem readsOnly_hasDocument (s : Store) (name : String) : (s.hasDocument name).ReadsOnly :=
  (readsOnly_of _).bind fun _ => readsOnly_ask _ _

theorem readsOnly_refuseBeside (s : Store) (name : String) (ps : List (String × NameFault)) :
    (s.refuseBeside name ps).ReadsOnly := by
  induction ps with
  | nil => exact readsOnly_pure ()
  | cons p ps ih =>
    refine (s.readsOnly_hasDocument _).bind fun present => ?_
    cases present
    · exact ih
    · exact (readsOnly_refuse _).bind fun _ => ih

theorem readsOnly_checkCollision (s : Store) (name : String) : (s.checkCollision name).ReadsOnly := by
  rw [checkCollision_eq]
  exact s.readsOnly_refuseBeside name _

/-- A walk ends well when none of the presets has a document. -/
theorem refuseBeside_yields_iff {u : Unit} :
    (s.refuseBeside name ps).Yields d u d' ↔
      d' = d ∧ ∀ p ∈ ps, (s.hasDocument p.1).Yields d false d := by
  induction ps with
  | nil => simp [refuseBeside]
  | cons p ps ih =>
    rw [refuseBeside, yields_bind, List.forall_mem_cons]
    constructor
    · rintro ⟨present, d₁, hp, h⟩
      obtain rfl := (s.readsOnly_hasDocument _).disk_eq hp
      cases present with
      | true =>
        obtain ⟨_, _, hr, -⟩ := yields_bind.mp h
        exact absurd hr yields_refuse
      | false =>
        obtain ⟨rfl, hrest⟩ := ih.mp h
        exact ⟨rfl, hp, hrest⟩
    · rintro ⟨rfl, hp, hrest⟩
      exact ⟨false, d', hp, ih.mpr ⟨rfl, hrest⟩⟩

/-- A walk that fails has found a document, and then the name is refused, or it could not ask for
one. -/
theorem refuseBeside_fails {e : PresetError} (h : (s.refuseBeside name ps).Fails d e d') :
    ∃ p ∈ ps, ((s.hasDocument p.1).Yields d true d ∧ e = .invalidName name p.2) ∨
      (s.hasDocument p.1).Fails d e d := by
  induction ps with
  | nil => exact absurd h fails_pure
  | cons p ps ih =>
    rw [refuseBeside] at h
    rcases fails_bind.mp h with h | ⟨present, d₁, hp, h⟩
    · exact ⟨p, List.mem_cons_self, .inr ⟨h.1, s.readsOnly_hasDocument _ d⟩⟩
    obtain rfl := (s.readsOnly_hasDocument _).disk_eq hp
    cases present with
    | true =>
      rcases fails_bind.mp h with h | ⟨_, _, h, -⟩
      · exact ⟨p, List.mem_cons_self, .inl ⟨hp, (fails_refuse.mp h).1⟩⟩
      · exact absurd h yields_refuse
    | false =>
      obtain ⟨q, hq, hcases⟩ := ih h
      exact ⟨q, List.mem_cons_of_mem p hq, hcases⟩

end FractalShader.Store
