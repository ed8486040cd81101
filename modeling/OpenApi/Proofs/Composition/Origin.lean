/-
  OpenApi.Proofs.Composition.Origin — where the properties of a model come from.

  Each property of a model is declared in it or in a model that it inherits from, and is at most made
  required on the way. So its schema stands in the spec (`stores_of_allProperties`).
-/
import OpenApi.Proofs.Composition.Flattening

namespace OpenApi

open Relation

theorem Property.withRequired_self (p : Property) : p.withRequired p.required = p := by
  cases p
  rfl

namespace Spec

variable {s : Spec}

/-! ## §1. Origins. -/

/-- The model, or one that it inherits from, requires what has the name. -/
def Requires (s : Spec) (m : Model) (name : String) : Prop := ∃ a, s.Inherits m (.allOf a) ∧ name ∈ a.required

theorem Requires.of_extends {m b : Model} {name : String} (hb : Extends s m b) (h : s.Requires b name) :
    s.Requires m name := by
  obtain ⟨a, ha, hname⟩ := h
  exact ⟨a, .head hb ha, hname⟩

/-- The property is declared in the model or in one that it inherits from, or it is made required from
one that is, because its name is. -/
def Originates (s : Spec) (m : Model) (p : Property) : Prop :=
  ∃ c, s.Inherits m c ∧ ∃ q ∈ c.declared, p = q ∨ p = q.withRequired true ∧ s.Requires m p.name

theorem Originates.of_extends {m b : Model} {p : Property} (hb : Extends s m b)
    (h : s.Originates b p) : s.Originates m p := by
  obtain ⟨c, hc, q, hq, hp⟩ := h
  exact ⟨c, .head hb hc, q, hq, hp.imp_right fun ⟨heq, hname⟩ => ⟨heq, hname.of_extends hb⟩⟩

/-- What originates in a model is declared there but for the flag. -/
theorem Originates.withRequired {m : Model} {p : Property} (h : s.Originates m p) :
    ∃ c, s.Inherits m c ∧ ∃ q ∈ c.declared, p = q.withRequired p.required ∧
      (p.required ≠ q.required → p.required = true ∧ s.Requires m p.name) := by
  obtain ⟨c, hc, q, hq, hp⟩ := h
  refine ⟨c, hc, q, hq, ?_⟩
  rcases hp with rfl | ⟨rfl, hname⟩
  · exact ⟨p.withRequired_self.symm, fun hne => absurd rfl hne⟩
  · exact ⟨rfl, fun _ => ⟨rfl, hname⟩⟩

theorem originates_of_requiredInherited {depth : Nat} {chain : Chain} {a : AllOfModel}
    {names : List String} (hnames : names ⊆ a.required) :
    ∀ {ps : List Property}, s.requiredInherited depth chain a names = .ok ps →
      ∀ p ∈ ps, s.Originates (.allOf a) p := by
  induction names with
  | nil =>
    intro ps h p hp
    rw [← Except.ok.inj h] at hp
    exact absurd hp List.not_mem_nil
  | cons name rest ih =>
    intro ps h p hp
    obtain ⟨hname, hrest⟩ := List.cons_subset.1 hnames
    unfold requiredInherited at h
    split at h
    next => exact ih hrest h p hp
    next =>
      obtain ⟨found, hfirst, h⟩ := Outcome.bind_eq_ok.1 h
      cases found with
      | none => exact absurd h (by simp)
      | some q =>
        obtain ⟨more, hmore, h⟩ := Outcome.bind_eq_ok.1 h
        rw [← Except.ok.inj h] at hp
        rcases List.mem_cons.1 hp with rfl | hp
        -- only here the flag may change: the property is declared further up, and its name is required below
        · obtain ⟨r, hr, b, hget, hfind⟩ := firstInSupers_eq_some hfirst
          obtain ⟨hqname, c, hc, hq⟩ := declared_of_findProperty hfind
          have hrequired : s.Requires (.allOf a) (q.withRequired true).name := ⟨a, .refl, hqname.symm ▸ hname⟩
          exact ⟨c, .head (.super hr hget) hc, q, hq, .inr ⟨rfl, hrequired⟩⟩
        · exact ih hrest hmore p hp

theorem originates_of_ownPropertiesIn {depth : Nat} {chain : Chain} {a : AllOfModel}
    {ps : List Property} (h : s.ownPropertiesIn depth chain a = .ok ps) :
    ∀ p ∈ ps, s.Originates (.allOf a) p := by
  intro p hp
  unfold ownPropertiesIn at h
  obtain ⟨inherited, hinherited, h⟩ := Outcome.bind_eq_ok.1 h
  rw [← Except.ok.inj h] at hp
  rcases List.mem_append.1 hp with hp | hp
  · exact originates_of_requiredInherited (List.Subset.refl _) hinherited p hp
  · exact ⟨_, .refl, p, hp, .inl rfl⟩

/-- A fold that adds to a list only what meets a condition gives a list of which the rest met it. -/
theorem mem_of_foldlM {α : Type} {P : Property → Prop}
    {f : List Property → α → Except Error (List Property)} {xs : List α}
    (hstep : ∀ x ∈ xs, ∀ into ps, f into x = .ok ps → ∀ p ∈ ps, p ∈ into ∨ P p) :
    ∀ {into ps : List Property}, xs.foldlM f into = .ok ps → ∀ p ∈ ps, p ∈ into ∨ P p := by
  induction xs with
  | nil =>
    intro into ps h p hp
    exact .inl (Except.ok.inj h ▸ hp)
  | cons x xs ih =>
    intro into ps h p hp
    rw [List.foldlM_cons] at h
    obtain ⟨mid, hx, h⟩ := Outcome.bind_eq_ok.1 h
    rcases ih (fun y hy => hstep y (List.mem_cons_of_mem _ hy)) h p hp with hp | hp
    · exact hstep x List.mem_cons_self _ _ hx p hp
    · exact .inr hp

theorem originates_of_collectAllOf {depth : Nat} :
    ∀ {chain : Chain} {a : AllOfModel} {into ps : List Property},
      s.collectAllOf depth chain a into = .ok ps →
      ∀ p ∈ ps, p ∈ into ∨ s.Originates (.allOf a) p := by
  -- the list is threaded through the recursion, so what was in it before is allowed for
  induction depth using Nat.strongRecOn with
  | ind depth ih =>
    intro chain a into ps h p hp
    rcases collectAllOf_cases depth chain a into with ⟨-, hres⟩ | ⟨-, -, hres⟩ | ⟨-, d, hd, hres⟩
    · rw [hres] at h
      exact absurd h (by simp)
    · rw [hres] at h
      exact absurd h (by simp)
    rw [hres] at h
    obtain ⟨supers, hsupers, h⟩ := Outcome.bind_eq_ok.1 h
    obtain ⟨inherited, hfold, h⟩ := Outcome.bind_eq_ok.1 h
    obtain ⟨own, hown, h⟩ := Outcome.bind_eq_ok.1 h
    rw [← Except.ok.inj h] at hp
    rcases Keyed.mem_putAll hp with hp | hp
    · refine mem_of_foldlM ?_ hfold p hp
      intro b hb into ps hcollect p hp
      have hext : Extends s (.allOf a) b := (mem_superModels hsupers).1 hb
      cases b with
      | generic g =>
        rw [← Except.ok.inj hcollect] at hp
        exact (Keyed.mem_putAll hp).imp_right fun hp => ⟨_, .single hext, p, hp, .inl rfl⟩
      | allOf c => exact (ih d (by omega) hcollect p hp).imp_right (.of_extends hext)
      | enumeration _ | oneOf _ | array _ => exact absurd hcollect (by simp [collectSuper])
    · exact .inr (originates_of_ownPropertiesIn hown p hp)

/-- **Each property of a model comes from the model or from one that it inherits from.** -/
theorem originates_of_allProperties {m : Model} {ps : List Property} (h : s.allProperties m = .ok ps)
    {p : Property} (hp : p ∈ ps) : s.Originates m p := by
  cases m with
  | generic g =>
    rw [← Except.ok.inj h] at hp
    exact ⟨_, .refl, p, hp, .inl rfl⟩
  | allOf a =>
    rcases originates_of_collectAllOf h p hp with hp | hp
    · exact absurd hp List.not_mem_nil
    · exact hp
  | enumeration _ | oneOf _ | array _ =>
    rw [← Except.ok.inj h] at hp
    exact absurd hp List.not_mem_nil

/-- The schemas of the properties of a model of a spec stand in the spec. -/
theorem stores_of_allProperties {m : Model} (hm : s.IsDeclared m) {ps : List Property}
    (h : s.allProperties m = .ok ps) {p : Property} (hp : p ∈ ps) : s.Stores p.schema := by
  obtain ⟨c, hc, q, hq, heq, -⟩ := (originates_of_allProperties h hp).withRequired
  have hschema : p.schema = q.schema := by rw [heq]; rfl
  rw [hschema]
  exact stores_of_schema (hc.isDeclared hm) (Model.schema_mem hq)

end Spec

end OpenApi
