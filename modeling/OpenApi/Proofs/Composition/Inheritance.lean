/-
  OpenApi.Proofs.Composition.Inheritance — what allOf models inherit, and what can be wrong with it.

  An allOf model extends the models that its super references name. It is composable if each of these is an
  object, no chain of super references leads back to it, and what it requires is declared inline or carried
  by a super model. `Fault` lists what is wrong with a model of which something inherited is not composable,
  each with the error it is told by.
-/
import Mathlib.Logic.Relation
import OpenApi.Proofs.Keyed
import OpenApi.Proofs.Spec.Stored

namespace OpenApi

open Relation

/-! ## §1. Looking properties up. -/

/-- An inline object of the model declares a property with the name. -/
def AllOfModel.DeclaresInline (m : AllOfModel) (name : String) : Prop :=
  ∃ p ∈ (Model.allOf m).declared, p.name = name

theorem AllOfModel.inlineProperty?_eq_some {m : AllOfModel} {name : String} {p : Property}
    (h : m.inlineProperty? name = some p) : p ∈ (Model.allOf m).declared ∧ p.name = name := by
  obtain ⟨object, hobject, hfind⟩ := List.exists_of_findSome?_eq_some h
  obtain ⟨hp, hname⟩ := Keyed.find?_eq_some hfind
  exact ⟨List.mem_flatten.2 ⟨object, hobject, hp⟩, hname⟩

theorem AllOfModel.inlineProperty?_eq_none {m : AllOfModel} {name : String} :
    m.inlineProperty? name = none ↔ ¬ m.DeclaresInline name := by
  unfold AllOfModel.inlineProperty? AllOfModel.DeclaresInline Model.declared
  rw [List.findSome?_eq_none_iff]
  simp only [Keyed.find?_eq_none, List.mem_flatten]
  constructor
  · rintro h ⟨p, ⟨object, hobject, hp⟩, hname⟩
    exact h object hobject p hp hname
  · exact fun h object hobject p hp hname => h ⟨p, ⟨object, hobject, hp⟩, hname⟩

namespace Spec

/-! ## §2. Super models. -/

/-- The first model is an allOf model, and one of its super references names the second. -/
inductive Extends (s : Spec) : Model → Model → Prop
  | super {a : AllOfModel} {r : SchemaRef} {b : Model} (hr : r ∈ a.supers)
      (h : s.getModel r = .ok b) : Extends s (.allOf a) b

/-- Super references lead from the first model to the second, or both are one. -/
abbrev Inherits (s : Spec) : Model → Model → Prop := ReflTransGen (Extends s)

/-- One or more super references lead from the model back to it. -/
abbrev InheritsItself (s : Spec) (m : Model) : Prop := TransGen (Extends s) m m

theorem Extends.isDeclared {s : Spec} {a b : Model} (h : Extends s a b) : s.IsDeclared b := by
  cases h with
  | super _ h => exact isDeclared_of_getModel h

theorem Inherits.isDeclared {s : Spec} {a b : Model} (h : s.Inherits a b) (ha : s.IsDeclared a) :
    s.IsDeclared b := by
  rcases ReflTransGen.cases_tail h with rfl | ⟨c, -, hb⟩
  · exact ha
  · exact hb.isDeclared

/-- The model, or one that it inherits from, declares a property with the name. -/
def Carries (s : Spec) (name : String) (m : Model) : Prop :=
  ∃ c, s.Inherits m c ∧ ∃ p ∈ c.declared, p.name = name

/-- The super models of the model are objects, it does not inherit from itself, and it has a property for
each name that it requires. -/
structure Composable (s : Spec) (a : AllOfModel) : Prop where
  objects : ∀ r ∈ a.supers, ∃ b, s.getModel r = .ok b ∧ b.isObject = true
  acyclic : ¬ s.InheritsItself (.allOf a)
  required : ∀ name ∈ a.required, ¬ a.DeclaresInline name →
    ∃ b, Extends s (.allOf a) b ∧ s.Carries name b

/-! ## §3. Faults. -/

/-- Something that the model inherits from is not composable, and the error says what. -/
inductive Fault (s : Spec) (m : Model) : Error → Prop
  | unresolved {a : AllOfModel} {r : SchemaRef} {e : Error} (ha : s.Inherits m (.allOf a))
      (hr : r ∈ a.supers) (h : s.getModel r = .error e) : Fault s m e
  | notAnObject {a : AllOfModel} {r : SchemaRef} {b : Model} (ha : s.Inherits m (.allOf a))
      (hr : r ∈ a.supers) (h : s.getModel r = .ok b) (hb : b.isObject = false) :
      Fault s m (superError a.name b)
  | cycle {a : AllOfModel} {chain : Chain} (ha : s.Inherits m (.allOf a))
      (h : s.InheritsItself (.allOf a)) : Fault s m (chain.cycleError a.name)
  | lacking {a : AllOfModel} {name : String} (ha : s.Inherits m (.allOf a))
      (hname : name ∈ a.required) (hinline : ¬ a.DeclaresInline name)
      (h : ∀ b, Extends s (.allOf a) b → ¬ s.Carries name b) :
      Fault s m (missingProperty name a.name)

/-- What is wrong with a super model is wrong with the model. -/
theorem Fault.of_extends {s : Spec} {m b : Model} {e : Error} (hb : Extends s m b)
    (h : s.Fault b e) : s.Fault m e := by
  cases h with
  | unresolved ha hr h => exact .unresolved (.head hb ha) hr h
  | notAnObject ha hr h hobject => exact .notAnObject (.head hb ha) hr h hobject
  | cycle ha h => exact .cycle (.head hb ha) h
  | lacking ha hname hinline h => exact .lacking (.head hb ha) hname hinline h

/-- Where all that is inherited is composable nothing is wrong. -/
theorem not_fault_of_composable {s : Spec} {m : Model} {e : Error}
    (h : ∀ a, s.Inherits m (.allOf a) → s.Composable a) : ¬ s.Fault m e := by
  intro hfault
  cases hfault with
  | unresolved ha hr herror =>
    obtain ⟨b, hok, -⟩ := (h _ ha).objects _ hr
    rw [herror] at hok
    exact absurd hok (by simp)
  | notAnObject ha hr hget hb =>
    obtain ⟨c, hok, hc⟩ := (h _ ha).objects _ hr
    rw [hget] at hok
    rw [Except.ok.inj hok, hc] at hb
    exact Bool.noConfusion hb
  | cycle ha hcycle => exact (h _ ha).acyclic hcycle
  | lacking ha hname hinline hnone =>
    obtain ⟨b, hb, hcarries⟩ := (h _ ha).required _ hname hinline
    exact hnone b hb hcarries

/-- A reference that does not resolve is told as such, unless it leads to a number that no model has. -/
theorem getModel_eq_error {s : Spec} {r : SchemaRef} {e : Error} (h : s.getModel r = .error e) :
    e = ⟨.missingReference r.reference s.modelNames, none⟩ ∨ ∃ n, e = rangeError n := by
  rcases Outcome.bind_eq_error.1 h with h | ⟨n, -, h⟩
  · unfold modelNumber at h
    split at h
    next => exact absurd h nofun
    next => exact .inl (Except.error.inj h).symm
  · split at h
    next => exact absurd h nofun
    next => exact .inr ⟨n, (Except.error.inj h).symm⟩

theorem rangeError_ne_depthError (n : Nat) : rangeError n ≠ depthError := by
  intro h
  have hmessage : "model id " ++ toString n ++ " out of range" = "models are nested deeper than their number" := by
    simpa [rangeError, depthError, Error.ofViolation] using h
  have hsixth := congrArg (fun text : String => text.toList[5]?) hmessage
  simp at hsixth

/-- No fault is told by the error for the limit of depth. -/
theorem Fault.ne_depthError {s : Spec} {m : Model} {e : Error} (h : s.Fault m e) :
    e ≠ depthError := by
  cases h with
  | unresolved _ _ h =>
    rcases getModel_eq_error h with rfl | ⟨n, rfl⟩
    · simp [depthError, Error.ofViolation]
    · exact rangeError_ne_depthError n
  | notAnObject => simp [depthError, superError, Error.ofViolation]
  | cycle => simp [depthError, Chain.cycleError, Error.ofViolation]
  | lacking => simp [depthError, missingProperty, Error.ofViolation]

/-- Only a model that inherits from itself is told as a cycle. -/
theorem Fault.cyclic {s : Spec} {m : Model} {names : List String}
    (h : s.Fault m (.ofViolation (.cyclicInheritance names))) :
    ∃ a, s.Inherits m (.allOf a) ∧ s.InheritsItself (.allOf a) := by
  generalize he : Error.ofViolation (.cyclicInheritance names) = e at h
  cases h with
  | unresolved _ _ h =>
    rcases getModel_eq_error h with rfl | ⟨n, rfl⟩
    · simp [Error.ofViolation] at he
    · simp [rangeError, Error.ofViolation] at he
  | notAnObject => simp [superError, Error.ofViolation] at he
  | cycle ha h => exact ⟨_, ha, h⟩
  | lacking => simp [missingProperty, Error.ofViolation] at he

end Spec

end OpenApi
