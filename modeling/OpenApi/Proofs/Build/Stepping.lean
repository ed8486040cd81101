/-
  OpenApi.Proofs.Build.Stepping — steps that a run comes to.

  A run comes to the step that is run, to what its first part comes to, and to what the rest comes to once the first
  part has succeeded (`Building.StepOf`). A step that fails there ends the run with its error
  (`Building.StepOf.error`).
-/
import OpenApi.Proofs.Build.DocumentReaders
import OpenApi.Proofs.Effects.Steady

namespace OpenApi.Building

/-- The step is one that a run comes to, which is then in the session `t`. The run is told by the step that is run and
by the session that it starts from. -/
inductive StepOf {β : Type} (y : Building β) (t : Session) : {α : Type} → Building α → Session → Prop
  | self : StepOf y t y t
  | first {α γ : Type} {x : Building α} {k : α → Building γ} {s : Session} (h : StepOf y t x s) :
      StepOf y t (x >>= k) s
  | rest {α γ : Type} {x : Building α} {k : α → Building γ} {a : α} {s middle : Session}
      (hx : x.run.run s = (.ok a, middle)) (h : StepOf y t (k a) middle) : StepOf y t (x >>= k) s
  /-- A document is read with marks of its own. -/
  | document {read : Mapping → Building Unit} {d : Document} {s : Session}
      (h : StepOf y t (liftM d.mapping >>= read) { s with usage := .none }) : StepOf y t (Build.readWith read d) s

namespace StepOf

variable {α β : Type} {x : Building α} {y : Building β} {s t : Session}

/-- **A run fails with the error of a step that it comes to.** -/
theorem error {e : Error} (hy : y.StepOf t x s) (h : (y.run.run t).1 = .error e) : (x.run.run s).1 = .error e := by
  induction hy with
  | self => exact h
  | first _ ih => rw [run_bind_error (Prod.ext ih rfl)]
  | rest hx _ ih => rw [run_bind hx, ih]
  | document _ ih =>
    rw [Build.run_readWith, ih]
    rfl

end StepOf

end OpenApi.Building
