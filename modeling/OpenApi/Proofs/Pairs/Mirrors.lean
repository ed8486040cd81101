/-
  OpenApi.Proofs.Pairs.Mirrors — steps that do the same from states that belong together.

  A step mirrors another one if, from states that belong together, both end in states that belong together, with
  results that do or with errors that do. `Mirrors` is given the relations of errors, of states and of results, and
  has a rule for each way to put steps together.
-/
import OpenApi.Build.Session
import OpenApi.Proofs.Pairs.Alike

namespace OpenApi

variable {σ α β γ δ : Type}

/-- From states that belong together, both steps end in such states, with related results or errors that belong
together. -/
def Mirrors (E : Error → Error → Prop) (I : σ → σ → Prop) (R : α → β → Prop) (x : ExceptT Error (StateM σ) α)
    (x' : ExceptT Error (StateM σ) β) : Prop :=
  ∀ s s', I s s' → Both E R (x.run.run s).1 (x'.run.run s').1 ∧ I (x.run.run s).2 (x'.run.run s').2

namespace Mirrors

variable {E : Error → Error → Prop} {I : σ → σ → Prop} {R : α → β → Prop} {S : γ → δ → Prop}
  {x : ExceptT Error (StateM σ) α} {x' : ExceptT Error (StateM σ) β}

/-! ## §1. One step after another. -/

theorem mono {R' : α → β → Prop} (h : Mirrors E I R x x') (hR : ∀ a b, R a b → R' a b) : Mirrors E I R' x x' := by
  intro s s' hs
  obtain ⟨hresult, hstate⟩ := h s s' hs
  exact ⟨hresult.mono hR, hstate⟩

theorem pure {a : α} {b : β} (h : R a b) :
    Mirrors E I R (pure a : ExceptT Error (StateM σ) α) (pure b : ExceptT Error (StateM σ) β) :=
  fun _ _ hs => ⟨.ok h, hs⟩

theorem throw {e e' : Error} (h : E e e') :
    Mirrors E I R (throw e : ExceptT Error (StateM σ) α) (throw e' : ExceptT Error (StateM σ) β) :=
  fun _ _ hs => ⟨.error h, hs⟩

theorem bind {g : α → ExceptT Error (StateM σ) γ} {g' : β → ExceptT Error (StateM σ) δ}
    (hx : Mirrors E I R x x') (hg : ∀ a b, R a b → Mirrors E I S (g a) (g' b)) :
    Mirrors E I S (x >>= g) (x' >>= g') := by
  intro s s' hs
  obtain ⟨hresult, hstate⟩ := hx s s' hs
  have hrun : (x >>= g).run.run s = (ExceptT.bindCont g (x.run.run s).1).run (x.run.run s).2 := rfl
  have hrun' : (x' >>= g').run.run s' = (ExceptT.bindCont g' (x'.run.run s').1).run (x'.run.run s').2 := rfl
  rw [hrun, hrun']
  generalize x.run.run s = after at hresult hstate ⊢
  generalize x'.run.run s' = after' at hresult hstate ⊢
  obtain ⟨result, t⟩ := after
  obtain ⟨result', t'⟩ := after'
  cases hresult with
  | ok hab => exact hg _ _ hab t t' hstate
  -- the second step is not taken, but what the first one did stays
  | error he => exact ⟨.error he, hstate⟩

theorem map {f : α → γ} {f' : β → δ} (hx : Mirrors E I R x x') (hf : ∀ a b, R a b → S (f a) (f' b)) :
    Mirrors E I S (f <$> x) (f' <$> x') := by
  rw [map_eq_pure_bind, map_eq_pure_bind]
  exact hx.bind fun a b hab => pure (hf a b hab)

/-- Results that need no state. -/
theorem ofExcept {r : Except Error α} {r' : Except Error β} (h : Both E R r r') :
    Mirrors E I R (liftM r : ExceptT Error (StateM σ) α) (liftM r' : ExceptT Error (StateM σ) β) :=
  fun _ _ hs => ⟨h, hs⟩

/-! ## §2. Lists. -/

theorem mapM {Q : α → β → Prop} {f : α → ExceptT Error (StateM σ) γ} {f' : β → ExceptT Error (StateM σ) δ}
    (h : ∀ a b, Q a b → Mirrors E I S (f a) (f' b)) {xs : List α} {ys : List β} (hxs : List.Forall₂ Q xs ys) :
    Mirrors E I (List.Forall₂ S) (xs.mapM f) (ys.mapM f') := by
  induction hxs with
  | nil => exact pure .nil
  | cons hab _ ih =>
    rw [List.mapM_cons, List.mapM_cons]
    refine (h _ _ hab).bind fun c d hcd => ?_
    exact ih.bind fun cs ds hcds => pure (.cons hcd hcds)

/-- Where the results are the same, so are the lists of them. -/
theorem mapM_eq {Q : α → β → Prop} {f : α → ExceptT Error (StateM σ) γ} {f' : β → ExceptT Error (StateM σ) γ}
    (h : ∀ a b, Q a b → Mirrors E I Eq (f a) (f' b)) {xs : List α} {ys : List β} (hxs : List.Forall₂ Q xs ys) :
    Mirrors E I Eq (xs.mapM f) (ys.mapM f') :=
  (mapM h hxs).mono fun _ _ hcds => List.forall₂_eq_eq_eq ▸ hcds

theorem forM {Q : α → β → Prop} {f : α → ExceptT Error (StateM σ) Unit} {f' : β → ExceptT Error (StateM σ) Unit}
    (h : ∀ a b, Q a b → Mirrors E I Eq (f a) (f' b)) {xs : List α} {ys : List β} (hxs : List.Forall₂ Q xs ys) :
    Mirrors E I Eq (xs.forM f) (ys.forM f') := by
  induction hxs with
  | nil => exact pure rfl
  | cons hab _ ih => exact (h _ _ hab).bind fun _ _ _ => ih

theorem foldlM {Q : α → β → Prop} {f : γ → α → ExceptT Error (StateM σ) γ}
    {f' : δ → β → ExceptT Error (StateM σ) δ}
    (h : ∀ c d a b, S c d → Q a b → Mirrors E I S (f c a) (f' d b)) {xs : List α} {ys : List β}
    (hxs : List.Forall₂ Q xs ys) : ∀ c d, S c d → Mirrors E I S (xs.foldlM f c) (ys.foldlM f' d) := by
  induction hxs with
  | nil => exact fun c d hcd => pure hcd
  | cons hab _ ih =>
    intro c d hcd
    rw [List.foldlM_cons, List.foldlM_cons]
    exact (h c d _ _ hcd hab).bind fun c' d' hcd' => ih c' d' hcd'

/-! ## §3. Steps of a build. -/

theorem optionally {I : Session → Session → Prop} {read : α → Building γ} {read' : β → Building δ} {default : γ}
    {default' : δ} {o : Option α} {o' : Option β} (ho : Option.Rel R o o')
    (h : ∀ a b, R a b → Mirrors E I S (read a) (read' b)) (hdefault : S default default') :
    Mirrors E I S (Building.optionally read default o) (Building.optionally read' default' o') := by
  cases ho with
  | some hab => exact h _ _ hab
  | none => exact pure hdefault

end Mirrors

end OpenApi
