import FractalShader.Cli.Run
import FractalShader.Proofs.Action.Refusal

/-!
# What the parts of a command do on the disk

A part of a command runs an action and goes on only when it succeeded.  Notices
change nothing, so the disk that a command leaves is the one that its actions
lead to.

* `disk_doing_bind_of_yields`, `disk_doing_bind_of_fails` — an action as the first
  part;
* `disk_bind_of_readsOnly` — parts that only look do not count.
-/

namespace FractalShader.Cli

open FractalShader.Action

variable {α β : Type} {t : Task α} {f : α → Task β} {x : Action α} {d d' : Disk}

/-! ## Parts that only look -/

theorem readsOnly_notice (text : String) : (notice text).run.ReadsOnly := fun _ => rfl

theorem readsOnly_noticeWarnings (warnings : List Warning) :
    (noticeWarnings warnings).run.ReadsOnly := fun _ => rfl

theorem readsOnly_bind (ht : t.run.ReadsOnly) (hf : ∀ a, (f a).run.ReadsOnly) :
    (t >>= f).run.ReadsOnly := by
  refine ReadsOnly.bind ht fun r => ?_
  cases r with
  | ok a => exact hf a
  | error failure => exact readsOnly_pure _

theorem disk_bind_of_readsOnly (hf : ∀ a, (f a).run.ReadsOnly) (d : Disk) :
    ((t >>= f).run.run d).disk = (t.run.run d).disk := by
  refine Action.disk_bind_of_readsOnly (fun r => ?_) d
  cases r with
  | ok a => exact hf a
  | error failure => exact readsOnly_pure _

/-! ## Actions as parts -/

theorem disk_doing (context : Option String) (x : Action α) (d : Disk) :
    ((doing context x).run.run d).disk = (x.run d).disk := by
  refine (Action.disk_bind_of_readsOnly (fun r => ?_) d : _ = (x.attempt.run d).disk)
  cases r with
  | ok a => exact readsOnly_pure _
  | error e => exact readsOnly_pure _

theorem disk_doing_bind_of_yields {context : Option String} {a : α} (h : x.Yields d a d') :
    ((doing context x >>= f).run.run d).disk = ((f a).run.run d').disk := by
  have hdone : (doing context x).run.Yields d (.ok a) d' :=
    yields_bind.mpr ⟨.ok a, d', yields_attempt.mpr h, yields_pure.mpr ⟨rfl, rfl⟩⟩
  exact hdone.disk_bind

theorem disk_doing_bind_of_fails {context : Option String} {e : PresetError}
    (h : x.Fails d e d') : ((doing context x >>= f).run.run d).disk = d' := by
  have hdone : (doing context x).run.Yields d (.error (.preset context e)) d' :=
    yields_bind.mpr ⟨.error e, d', yields_attempt.mpr h, yields_pure.mpr ⟨rfl, rfl⟩⟩
  exact hdone.disk_bind

end FractalShader.Cli
