/-
  OpenApi.Proofs.Build.Making — which changes the steps of a build make.

  A step makes changes of one sort if all changes that it makes are of that sort, whatever their order. `Building.Makes`
  says so, and has a rule for each way to put steps together.
-/
import OpenApi.Proofs.Build.Yields

namespace OpenApi

namespace Building

variable {α β γ : Type} {x : Building α} {P : Change → Prop}

/-- The step makes only changes that meet the condition. -/
def Makes (P : Change → Prop) (x : Building α) : Prop := x.Yields fun _ changes => ∀ c ∈ changes, P c

namespace Makes

theorem silent (h : x.Silent) : x.Makes P := by
  refine Yields.mono h fun _ changes hnone => ?_
  rw [hnone]
  exact fun c hc => absurd hc List.not_mem_nil

theorem imp {Q : Change → Prop} (h : x.Makes P) (hsub : ∀ c, P c → Q c) : x.Makes Q :=
  Yields.mono h fun _ _ hchanges c hc => hsub c (hchanges c hc)

theorem pure {a : α} : Makes P (Pure.pure a) := silent .pure

theorem throw {e : Error} : Makes P (throw e : Building α) := silent .throw

theorem bind {g : α → Building β} (hx : x.Makes P) (hg : ∀ a, (g a).Makes P) : (x >>= g).Makes P :=
  Yields.bind hx fun a _ hchanges => (hg a).mono fun _ _ hmore => List.forall_mem_append.2 ⟨hchanges, hmore⟩

/-- A step that is told more of: what its result is. -/
theorem given {Q : α → Prop} {g : α → Building β} (hx : x.Makes P)
    (hgives : ∀ session a after, x.run.run session = (.ok a, after) → Q a) (hg : ∀ a, Q a → (g a).Makes P) :
    (x >>= g).Makes P := by
  intro session b after hrun
  obtain ⟨a, middle, hfirst, hsecond⟩ := run_bind_ok hrun
  obtain ⟨changes, happly, hchanges⟩ := hx session a middle hfirst
  obtain ⟨more, happly', hmore⟩ := hg a (hgives session a middle hfirst) middle b after hsecond
  exact ⟨changes ++ more, Spec.applyAll_trans happly happly', List.forall_mem_append.2 ⟨hchanges, hmore⟩⟩

theorem after {g : α → Building β} (hx : x.Silent) (hg : ∀ a, (g a).Makes P) : (x >>= g).Makes P :=
  (silent hx).bind hg

theorem reading {r : Reading α} {g : α → Building β} (hg : ∀ a, (g a).Makes P) :
    (liftM r >>= g : Building β).Makes P := after (.of_reading r) hg

theorem lift {r : Except Error α} {g : α → Building β} (hg : ∀ a, (g a).Makes P) :
    (liftM r >>= g : Building β).Makes P := after (.of_lift r) hg

theorem report {e : Event} {g : Unit → Building β} (hg : ∀ u, (g u).Makes P) :
    (Building.report e >>= g).Makes P := after (.of_report e) hg

theorem spec {g : Spec → Building β} (hg : ∀ s, (g s).Makes P) : (Building.spec >>= g).Makes P := Yields.spec hg

theorem update {f : Spec → Except Error Spec} (h : ∀ s t, f s = .ok t → ∃ c, s.apply c = .ok t ∧ P c) :
    (Building.update f).Makes P :=
  Yields.update fun s t hf => by
    obtain ⟨c, happly, hc⟩ := h s t hf
    exact ⟨c, happly, fun c' hc' => List.mem_singleton.1 hc' ▸ hc⟩

theorem optionally {read : α → Building β} {default : β} (h : ∀ a, (read a).Makes P) (o : Option α) :
    (Building.optionally read default o).Makes P := by
  cases o with
  | none => exact pure
  | some a => exact h a

theorem mapM {f : α → Building β} {xs : List α} (h : ∀ a, (f a).Makes P) : (xs.mapM f).Makes P := by
  induction xs with
  | nil => exact pure
  | cons a xs ih =>
    rw [List.mapM_cons]
    exact (h a).bind fun _ => ih.bind fun _ => pure

theorem forM {f : α → Building Unit} {xs : List α} (h : ∀ a ∈ xs, (f a).Makes P) : (xs.forM f).Makes P := by
  induction xs with
  | nil => exact pure
  | cons a xs ih =>
    have hrest := ih fun b hb => h b (List.mem_cons_of_mem _ hb)
    exact (h a List.mem_cons_self).bind fun _ => hrest

theorem foldlM {f : β → α → Building β} {xs : List α} (h : ∀ b, ∀ a ∈ xs, (f b a).Makes P) :
    ∀ b, (xs.foldlM f b).Makes P := by
  induction xs with
  | nil => exact fun _ => pure
  | cons a xs ih =>
    intro b
    have hrest := ih fun b a ha => h b a (List.mem_cons_of_mem _ ha)
    exact (h b a List.mem_cons_self).bind hrest

end Makes

end Building

end OpenApi
