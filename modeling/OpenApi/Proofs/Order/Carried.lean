/-
  OpenApi.Proofs.Order.Carried — steps that are carried over to another document.

  Two sessions are alike if their specs hold the same up to the order of models and the same keys are marked. A step
  is carried over to another one if, from alike sessions, the second one succeeds whenever the first one does and
  they end in alike sessions. A step is carried over to the same step in a copy of its document, if its effect
  depends on the tables of the spec only (`Carried.of_copy`).
-/
import OpenApi.Proofs.Spec.Answers
import OpenApi.Proofs.Strictness.Lookups

namespace OpenApi

/-! ## §1. Alike sessions. -/

/-- The same paths are marked in both. -/
structure Usage.Same (u v : Usage) : Prop where
  read : ∀ p, p ∈ u.read ↔ p ∈ v.read
  sealed : ∀ p, p ∈ u.sealed ↔ p ∈ v.sealed

namespace Usage.Same

variable {u v w : Usage}

theorem refl (u : Usage) : u.Same u := ⟨fun _ => .rfl, fun _ => .rfl⟩

theorem markRead (h : u.Same v) (path : Path) : (u.markRead path).Same (v.markRead path) where
  read p := by simp [Usage.markRead, h.read]
  sealed := h.sealed

theorem markSealed (h : u.Same v) (path : Path) : (u.markSealed path).Same (v.markSealed path) where
  read p := by simp [Usage.markSealed, h.read]
  sealed p := by simp [Usage.markSealed, h.sealed]

theorem plus (h : u.Same v) {more more' : Usage} (hmore : more.Same more') :
    (u.plus more).Same (v.plus more') where
  read p := by simp [Usage.plus, h.read, hmore.read]
  sealed p := by simp [Usage.plus, h.sealed, hmore.sealed]

end Usage.Same

/-- The same paths are marked, and the specs, which were both made by changes, hold the same. -/
structure Session.Alike (s t : Session) : Prop where
  usage : s.usage.Same t.usage
  spec : s.spec.Alike t.spec
  made : s.spec.Made
  made' : t.spec.Made

/-- What changes make of a spec that was made was made. -/
theorem Spec.Made.applyAll {s t : Spec} {changes : List Change} (hs : s.Made)
    (h : s.applyAll changes = .ok t) : t.Made := by
  obtain ⟨file, before, hbefore⟩ := hs
  exact ⟨file, before ++ changes, applyAll_trans hbefore h⟩

namespace Session.Alike

variable {s t s' t' : Session} {e : Effect}

/-- Events do not count. -/
theorem with_events (h : s.Alike t) (events events' : List Event) :
    Session.Alike { s with events } { t with events := events' } := ⟨h.usage, h.spec, h.made, h.made'⟩

/-- One effect leads from alike sessions to alike sessions. -/
theorem leads (h : s.Alike t) (hs : e.Leads s s') (ht : e.Leads t t') : s'.Alike t' where
  usage := by
    rw [hs.usage, ht.usage]
    exact h.usage.plus (.refl _)
  spec := h.spec.applyAll hs.spec ht.spec
  made := h.made.applyAll hs.spec
  made' := h.made'.applyAll ht.spec

end Session.Alike

/-! ## §2. Copies. -/

/-- The second mapping is the first one in another document of the same name. -/
structure Mapping.Copy (m m' : Mapping) : Prop where
  node : m'.node = m.node
  path : m'.path = m.path
  filename : m'.filename = m.filename
  kind : m.node.kind = .mapping

/-- The trim that leaves nothing out. -/
def Trim.whole (file : String) (usage : Usage) : Trim where
  file := file
  usage := usage
  gone := []
  not_read _ h := absurd h List.not_mem_nil
  not_inside _ _ _ _ := List.not_mem_nil

theorem Node.without_nil (n : Node) (path : Path) : n.without [] path = n :=
  without_eq_self fun _ _ => List.not_mem_nil

theorem Mapping.Copy.cuts {m m' : Mapping} (h : m.Copy m') (usage : Usage) :
    (Trim.whole m.filename usage).Cuts m m' where
  node := by
    rw [h.node]
    exact (Node.without_nil _ _).symm
  path := h.path
  file := rfl
  file' := h.filename
  kind := h.kind

namespace Building

open Agreement (tables)

variable {α β γ δ : Type}

/-! ## §3. Steps that are carried over. -/

/-- From alike sessions, the second step succeeds if the first one does, with a related result and in an alike
session. -/
def Carried (x : Building α) (x' : Building β) (R : α → β → Prop) : Prop :=
  ∀ (s t : Session) (a : α) (after : Session), s.Alike t → x.run.run s = (.ok a, after) →
    ∃ b after', x'.run.run t = (.ok b, after') ∧ R a b ∧ after.Alike after'

namespace Carried

variable {x : Building α} {x' : Building β} {R : α → β → Prop} {S : γ → δ → Prop}

theorem mono {R' : α → β → Prop} (h : Carried x x' R) (hR : ∀ a b, R a b → R' a b) : Carried x x' R' := by
  intro s t a after hst hrun
  obtain ⟨b, after', hrun', hab, hafter⟩ := h s t a after hst hrun
  exact ⟨b, after', hrun', hR a b hab, hafter⟩

theorem pure {a : α} {b : β} (h : R a b) : Carried (Pure.pure a : Building α) (Pure.pure b : Building β) R := by
  intro s t a' after hst hrun
  obtain ⟨rfl, rfl⟩ := run_pure_ok hrun
  exact ⟨b, t, rfl, h, hst⟩

theorem bind {g : α → Building γ} {g' : β → Building δ} (hx : Carried x x' R)
    (hg : ∀ a b, R a b → Carried (g a) (g' b) S) : Carried (x >>= g) (x' >>= g') S := by
  intro s t c after hst hrun
  obtain ⟨a, middle, hfirst, hsecond⟩ := run_bind_ok hrun
  obtain ⟨b, middle', hfirst', hab, hmiddle⟩ := hx s t a middle hst hfirst
  obtain ⟨d, after', hsecond', hcd, hafter⟩ := hg a b hab middle middle' c after hmiddle hsecond
  refine ⟨d, after', ?_, hcd, hafter⟩
  rw [run_bind hfirst']
  exact hsecond'

theorem lift {r : Except Error α} {r' : Except Error β} (h : ∀ a, r = .ok a → ∃ b, r' = .ok b ∧ R a b) :
    Carried (liftM r : Building α) (liftM r' : Building β) R := by
  intro s t a after hst hrun
  obtain ⟨hr, rfl⟩ := run_lift_ok hrun
  obtain ⟨b, hr', hab⟩ := h a hr
  refine ⟨b, t, ?_, hab, hst⟩
  rw [hr']
  rfl

theorem optionally {read : α → Building γ} {read' : β → Building δ} {default : γ} {default' : δ} {o : Option α}
    {o' : Option β} (ho : Option.Rel R o o') (hread : ∀ a b, R a b → Carried (read a) (read' b) S)
    (hdefault : S default default') :
    Carried (Building.optionally read default o) (Building.optionally read' default' o') S := by
  cases ho with
  | none => exact pure hdefault
  | some hab => exact hread _ _ hab

/-- An update that makes one change. -/
theorem update {f : Spec → Except Error Spec} (hf : ∀ s t, s.Alike t → ∀ s', f s = .ok s' →
    ∃ c t', s.apply c = .ok s' ∧ f t = .ok t' ∧ t.apply c = .ok t') :
    Carried (Building.update f) (Building.update f) fun _ _ => True := by
  intro s t u after hst hrun
  obtain ⟨s', hs, rfl⟩ := run_update_ok hrun
  obtain ⟨c, t', hc, ht, hd⟩ := hf s.spec t.spec hst.spec s' hs
  have hone : ∀ {u v : Spec}, u.apply c = .ok v → u.applyAll [c] = .ok v := fun hu => by
    rw [Spec.applyAll_cons, hu]
    rfl
  refine ⟨(), { t with spec := t' }, run_update ht, trivial, ?_⟩
  exact ⟨hst.usage, hst.spec.apply hc hd, hst.made.applyAll (hone hc), hst.made'.applyAll (hone hd)⟩

/-- **A step is carried over to what follows it in a copy of the document,** if its effect depends on the tables of
the spec only. -/
theorem of_copy {F : Prop} {file : String} (hsteady : x.Steady tables)
    (hfollows : ∀ usage, (Trim.whole file usage).Follows x x' R F) : Carried x x' R := by
  intro s t a after hst hrun
  obtain ⟨result, e, -, hgoes⟩ := hsteady s hst.spec.left.sameTables_self
  obtain ⟨hresult, hleads⟩ := hgoes s hst.spec.left.sameTables_self
  obtain ⟨hresult', hleads'⟩ := hgoes t (hst.spec.sameTables hst.made.namesDistinct)
  rw [hrun] at hresult hleads
  rw [← hresult] at hresult'
  -- the step itself does the same to the second session, and what follows it repeats that
  have hagain : x.run.run t = (.ok a, (x.run.run t).2) := Prod.ext hresult' rfl
  obtain ⟨-, -, hshows⟩ := hfollows (x.run.run t).2.usage t a _ hagain
  obtain ⟨-, hrepeats⟩ := hshows (.refl _)
  obtain ⟨b, events, hrun', hab⟩ := hrepeats t.events
  refine ⟨b, _, hrun', hab, ?_⟩
  exact (hst.leads hleads hleads').with_events after.events events

/-- What is carried over to a step is carried over to what follows it. -/
theorem followed {y : Building γ} {Q : β → γ → Prop} {F : Prop} {file : String} (hx : Carried x x' R)
    (hfollows : ∀ usage, (Trim.whole file usage).Follows x' y Q F) :
    Carried x y fun a c => ∃ b, R a b ∧ Q b c := by
  intro s t a after hst hrun
  obtain ⟨b, after', hrun', hab, hafter⟩ := hx s t a after hst hrun
  obtain ⟨-, -, hshows⟩ := hfollows after'.usage t b after' hrun'
  obtain ⟨-, hrepeats⟩ := hshows (.refl _)
  obtain ⟨c, events, hrun'', hbc⟩ := hrepeats t.events
  exact ⟨c, _, hrun'', ⟨b, hab, hbc⟩, hafter.with_events after.events events⟩

end Carried

end Building

end OpenApi
