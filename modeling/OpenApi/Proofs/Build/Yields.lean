/-
  OpenApi.Proofs.Build.Yields — what the steps of a build yield.

  A step that succeeds gives a result and makes changes to the spec of the session. `Yields` says that these
  meet a condition, and has a rule for each way to put steps together. Reading a document and reporting make
  no changes; a step that fails yields nothing, so whatever is said of it holds.
-/
import OpenApi.Build.Session
import OpenApi.Proofs.Spec.Changes

namespace OpenApi.Building

variable {α β : Type}

/-- If the step succeeds, its result and the changes that it makes to the spec meet the condition. -/
def Yields (x : Building α) (Q : α → List Change → Prop) : Prop :=
  ∀ session a after, x.run.run session = (.ok a, after) →
    ∃ changes, session.spec.applyAll changes = .ok after.spec ∧ Q a changes

/-! ## §1. One step after another. -/

/-- If two steps succeed, so does the first, and the second goes on from where it ends. -/
theorem run_bind_ok {x : Building α} {g : α → Building β} {session after : Session} {b : β}
    (h : (x >>= g).run.run session = (.ok b, after)) :
    ∃ a middle, x.run.run session = (.ok a, middle) ∧ (g a).run.run middle = (.ok b, after) := by
  cases hx : x.run.run session with
  | mk result middle =>
    have hbind : (x >>= g).run.run session = (ExceptT.bindCont g result).run middle := by
      show (x.run >>= ExceptT.bindCont g).run session = _
      rw [StateT.run_bind, hx]
      rfl
    rw [hbind] at h
    cases result with
    | error e =>
      have herror : ((.error e : Except Error β), middle) = (.ok b, after) := h
      exact absurd (Prod.mk.inj herror).1 (by simp)
    | ok a => exact ⟨a, middle, rfl, h⟩

/-- If the first of two steps succeeds, the second goes on from where it ends. -/
theorem run_bind {x : Building α} {g : α → Building β} {session middle : Session} {a : α}
    (h : x.run.run session = (.ok a, middle)) : (x >>= g).run.run session = (g a).run.run middle := by
  show (x.run >>= ExceptT.bindCont g).run session = _
  rw [StateT.run_bind, h]
  rfl

theorem run_pure_ok {session after : Session} {a b : α}
    (h : (pure a : Building α).run.run session = (.ok b, after)) : a = b ∧ session = after := by
  have hpair : ((.ok a : Except Error α), session) = (.ok b, after) := h
  obtain ⟨ha, hafter⟩ := Prod.mk.inj hpair
  exact ⟨Except.ok.inj ha, hafter⟩

theorem run_lift_ok {session after : Session} {r : Except Error α} {a : α}
    (h : (liftM r : Building α).run.run session = (.ok a, after)) : r = .ok a ∧ session = after := by
  have hpair : (r, session) = (.ok a, after) := h
  exact Prod.mk.inj hpair

theorem run_spec_ok {session after : Session} {s : Spec}
    (h : Building.spec.run.run session = (.ok s, after)) : session.spec = s ∧ session = after := by
  have hpair : ((.ok session.spec : Except Error Spec), session) = (.ok s, after) := h
  obtain ⟨hs, hafter⟩ := Prod.mk.inj hpair
  exact ⟨Except.ok.inj hs, hafter⟩

/-- An update that is accepted replaces the spec. -/
theorem run_update {f : Spec → Except Error Spec} {session : Session} {t : Spec} (h : f session.spec = .ok t) :
    (Building.update f).run.run session = (.ok (), { session with spec := t }) := by
  simp only [Building.update, ExceptT.run, ExceptT.mk, StateT.run, h]

theorem run_update_error {f : Spec → Except Error Spec} {session : Session} {e : Error}
    (h : f session.spec = .error e) : (Building.update f).run.run session = (.error e, session) := by
  simp only [Building.update, ExceptT.run, ExceptT.mk, StateT.run, h]

theorem run_update_ok {f : Spec → Except Error Spec} {session after : Session} {u : Unit}
    (h : (Building.update f).run.run session = (.ok u, after)) :
    ∃ t, f session.spec = .ok t ∧ after = { session with spec := t } := by
  cases hf : f session.spec with
  | error e =>
    rw [run_update_error hf] at h
    exact absurd (Prod.mk.inj h).1 (by simp)
  | ok t =>
    rw [run_update hf] at h
    exact ⟨t, rfl, (Prod.mk.inj h).2.symm⟩

namespace Yields

variable {x : Building α} {Q : α → List Change → Prop} {R : β → List Change → Prop}

theorem mono {Q' : α → List Change → Prop} (h : x.Yields Q)
    (hsub : ∀ a changes, Q a changes → Q' a changes) : x.Yields Q' := by
  intro session a after hrun
  obtain ⟨changes, happly, hQ⟩ := h session a after hrun
  exact ⟨changes, happly, hsub a changes hQ⟩

theorem pure {a : α} (h : Q a []) : Yields (pure a) Q := by
  intro session a' after hrun
  obtain ⟨rfl, rfl⟩ := run_pure_ok hrun
  exact ⟨[], rfl, h⟩

theorem throw {e : Error} : Yields (throw e : Building α) Q := by
  intro session a after hrun
  have hpair : ((.error e : Except Error α), session) = (.ok a, after) := hrun
  exact absurd (Prod.mk.inj hpair).1 (by simp)

theorem bind {g : α → Building β} (hx : x.Yields Q)
    (hg : ∀ a changes, Q a changes → (g a).Yields fun b more => R b (changes ++ more)) :
    (x >>= g).Yields R := by
  intro session b after hrun
  obtain ⟨a, middle, hfirst, hsecond⟩ := run_bind_ok hrun
  obtain ⟨changes, happly, hQ⟩ := hx session a middle hfirst
  obtain ⟨more, happly', hR⟩ := hg a changes hQ middle b after hsecond
  exact ⟨changes ++ more, Spec.applyAll_trans happly happly', hR⟩

/-! ## §2. Single steps. -/

/-- What a step yields that looks at the spec. -/
theorem spec {g : Spec → Building β} (h : ∀ s, (g s).Yields R) : (Building.spec >>= g).Yields R := by
  refine Yields.bind (Q := fun _ changes => changes = []) ?_ ?_
  · intro session a after hrun
    obtain ⟨-, rfl⟩ := run_spec_ok hrun
    exact ⟨[], rfl, rfl⟩
  · rintro s _ rfl
    exact h s

/-- An update that makes one change of the spec yields that change. -/
theorem update {f : Spec → Except Error Spec} {P : Unit → List Change → Prop}
    (h : ∀ s t, f s = .ok t → ∃ c, s.apply c = .ok t ∧ P () [c]) : (Building.update f).Yields P := by
  intro session u after hrun
  obtain ⟨t, hf, rfl⟩ := run_update_ok hrun
  obtain ⟨c, happly, hP⟩ := h _ _ hf
  refine ⟨[c], ?_, hP⟩
  rw [Spec.applyAll_cons, happly]
  rfl

end Yields

/-! ## §3. Silent steps. -/

/-- The step makes no changes. -/
def Silent (x : Building α) : Prop := x.Yields fun _ changes => changes = []

namespace Silent

variable {x : Building α}

theorem pure {a : α} : Silent (pure a) := Yields.pure rfl

theorem throw {e : Error} : Silent (throw e : Building α) := Yields.throw

theorem bind {g : α → Building β} (hx : x.Silent) (hg : ∀ a, (g a).Silent) : (x >>= g).Silent := by
  refine Yields.bind hx ?_
  rintro a _ rfl
  exact hg a

theorem of_reading (r : Reading α) : Silent (liftM r) := by
  intro session a after hrun
  have hpair : ((r.run.run session.usage).1, { session with usage := (r.run.run session.usage).2 }) =
      (.ok a, after) := hrun
  obtain ⟨-, rfl⟩ := Prod.mk.inj hpair
  exact ⟨[], rfl, rfl⟩

theorem of_lift (r : Except Error α) : Silent (liftM r) := by
  intro session a after hrun
  obtain ⟨-, rfl⟩ := run_lift_ok hrun
  exact ⟨[], rfl, rfl⟩

theorem of_report (e : Event) : Silent (Building.report e) := by
  intro session a after hrun
  have hpair : ((.ok () : Except Error Unit), { session with events := session.events ++ [e] }) =
      (.ok a, after) := hrun
  obtain ⟨-, rfl⟩ := Prod.mk.inj hpair
  exact ⟨[], rfl, rfl⟩

theorem reading {r : Reading α} {g : α → Building β} (hg : ∀ a, (g a).Silent) :
    Silent (liftM r >>= g) := (of_reading r).bind hg

theorem lift {r : Except Error α} {g : α → Building β} (hg : ∀ a, (g a).Silent) :
    Silent (liftM r >>= g) := (of_lift r).bind hg

theorem report {e : Event} {g : Unit → Building β} (hg : ∀ u, (g u).Silent) :
    Silent (Building.report e >>= g) := (of_report e).bind hg

theorem optionally {read : α → Building β} {default : β} (h : ∀ a, (read a).Silent) (o : Option α) :
    (Building.optionally read default o).Silent := by
  cases o with
  | none => exact pure
  | some a => exact h a

theorem mapM {f : α → Building β} {xs : List α} (h : ∀ a ∈ xs, (f a).Silent) :
    (xs.mapM f).Silent := by
  induction xs with
  | nil => exact pure
  | cons a xs ih =>
    rw [List.mapM_cons]
    have hrest := ih fun b hb => h b (List.mem_cons_of_mem _ hb)
    exact (h a List.mem_cons_self).bind fun _ => hrest.bind fun _ => pure

theorem foldlM {f : β → α → Building β} {xs : List α} (h : ∀ b, ∀ a ∈ xs, (f b a).Silent) :
    ∀ b, (xs.foldlM f b).Silent := by
  induction xs with
  | nil => exact fun _ => pure
  | cons a xs ih =>
    intro b
    have hrest := ih fun b a ha => h b a (List.mem_cons_of_mem _ ha)
    exact (h b a List.mem_cons_self).bind hrest

theorem forM {f : α → Building Unit} {xs : List α} (h : ∀ a ∈ xs, (f a).Silent) :
    (xs.forM f).Silent := by
  induction xs with
  | nil => exact pure
  | cons a xs ih =>
    have hrest := ih fun b hb => h b (List.mem_cons_of_mem _ hb)
    exact (h a List.mem_cons_self).bind fun _ => hrest

end Silent

end OpenApi.Building
