/-
  OpenApi.Proofs.Visibility.Reach — what leads to a flagged property.

  Models, schemas and properties are places, with a step from each to what it refers to or is made of. A place
  reaches what a view leaves out if steps lead from it to a property that is required and flagged. A place is
  clear of a set of model names if every way to such a property passes a model of the set; where each model of
  the set has only clear places next to it, nothing of the kind is reached at all (`Clear.not_reaches`).
-/
import OpenApi.Proofs.Composition.Origin
import OpenApi.Spec.Visibility

namespace OpenApi

open Relation

/-! ## §1. Places and steps. -/

/-- Where a walk can be. -/
inductive Place
  | model (m : Model)
  | schema (c : Schema)
  | property (p : Property)

namespace Spec

/-- What a place refers to, or is made of. -/
inductive Step (s : Spec) : Place → Place → Prop
  | reference {r : SchemaRef} {m : Model} (h : s.getModel r = .ok m) :
      Step s (.schema (.ref r)) (.model m)
  | items (a : ArraySchema) : Step s (.schema (.array a)) (.schema a.items)
  | values (c : Schema) : Step s (.schema (.record c)) (.schema c)
  | objectProperty {properties : List Property} {p : Property} (hp : p ∈ properties) :
      Step s (.schema (.object properties)) (.property p)
  | propertySchema (p : Property) : Step s (.property p) (.schema p.schema)
  | modelProperty {m : Model} {properties : List Property} {p : Property} (hm : m.isObject = true)
      (h : s.allProperties m = .ok properties) (hp : p ∈ properties) :
      Step s (.model m) (.property p)
  | member {u : OneOfModel} {r : SchemaRef} (hr : r ∈ u.memberReferences) :
      Step s (.model (.oneOf u)) (.schema (.ref r))
  | modelItems (a : ArrayModel) : Step s (.model (.array a)) (.schema a.array.items)

/-! ## §2. Places next to a place. -/

theorem step_reference {s : Spec} {r : SchemaRef} {m : Model} (h : s.getModel r = .ok m) {b : Place} :
    Step s (.schema (.ref r)) b ↔ b ∈ [Place.model m] := by
  rw [List.mem_singleton]
  constructor
  · intro hb
    cases hb with
    | reference h' =>
      rw [h] at h'
      rw [Except.ok.inj h']
  · rintro rfl
    exact .reference h

theorem step_array {s : Spec} {a : ArraySchema} {b : Place} :
    Step s (.schema (.array a)) b ↔ b ∈ [Place.schema a.items] := by
  rw [List.mem_singleton]
  constructor
  · intro h
    cases h with
    | items => rfl
  · rintro rfl
    exact .items a

theorem step_record {s : Spec} {values : Schema} {b : Place} :
    Step s (.schema (.record values)) b ↔ b ∈ [Place.schema values] := by
  rw [List.mem_singleton]
  constructor
  · intro h
    cases h with
    | values => rfl
  · rintro rfl
    exact .values values

theorem step_inline {s : Spec} {properties : List Property} {b : Place} :
    Step s (.schema (.object properties)) b ↔ b ∈ properties.map Place.property := by
  rw [List.mem_map]
  constructor
  · intro h
    cases h with
    | objectProperty hp => exact ⟨_, hp, rfl⟩
  · rintro ⟨p, hp, rfl⟩
    exact .objectProperty hp

theorem step_properties {s : Spec} {m : Model} {properties : List Property} (hm : m.isObject = true)
    (h : s.allProperties m = .ok properties) {b : Place} :
    Step s (.model m) b ↔ b ∈ properties.map Place.property := by
  rw [List.mem_map]
  constructor
  · intro hb
    cases hb with
    | modelProperty _ hproperties hp =>
      rw [h] at hproperties
      exact ⟨_, Except.ok.inj hproperties ▸ hp, rfl⟩
    | member => exact Bool.noConfusion hm
    | modelItems => exact Bool.noConfusion hm
  · rintro ⟨p, hp, rfl⟩
    exact .modelProperty hm h hp

theorem step_members {s : Spec} {u : OneOfModel} {b : Place} :
    Step s (.model (.oneOf u)) b ↔ b ∈ u.memberReferences.map fun r => Place.schema (.ref r) := by
  rw [List.mem_map]
  constructor
  · intro hb
    cases hb with
    | modelProperty hobject => exact Bool.noConfusion hobject
    | member hr => exact ⟨_, hr, rfl⟩
  · rintro ⟨r, hr, rfl⟩
    exact .member hr

theorem step_modelItems {s : Spec} {a : ArrayModel} {b : Place} :
    Step s (.model (.array a)) b ↔ b ∈ [Place.schema a.array.items] := by
  rw [List.mem_singleton]
  constructor
  · intro hb
    cases hb with
    | modelProperty hobject => exact Bool.noConfusion hobject
    | modelItems => rfl
  · rintro rfl
    exact .modelItems a

/-! ## §3. What is reached. -/

/-- Steps lead from the place to a property that is required and has the flag of the view. -/
def Reaches (s : Spec) (v : Visibility) (place : Place) : Prop :=
  ∃ p, ReflTransGen (Step s) place (.property p) ∧ v.omits p = true

theorem Reaches.of_step {s : Spec} {v : Visibility} {a b : Place} (hab : Step s a b)
    (h : s.Reaches v b) : s.Reaches v a := by
  obtain ⟨p, hp, homits⟩ := h
  exact ⟨p, .head hab hp, homits⟩

theorem reaches_of_omits (s : Spec) {v : Visibility} {p : Property} (h : v.omits p = true) :
    s.Reaches v (.property p) := ⟨p, .refl, h⟩

/-- A property reaches what it is itself, or what its schema reaches. -/
theorem reaches_property {s : Spec} {v : Visibility} {p : Property} :
    s.Reaches v (.property p) ↔ v.omits p = true ∨ s.Reaches v (.schema p.schema) := by
  constructor
  · rintro ⟨q, hq, homits⟩
    rcases ReflTransGen.cases_head hq with heq | ⟨b, hb, hrest⟩
    · rw [Place.property.inj heq]
      exact .inl homits
    · cases hb with
      | propertySchema => exact .inr ⟨q, hrest, homits⟩
  · rintro (homits | hreach)
    · exact reaches_of_omits s homits
    · exact hreach.of_step (.propertySchema p)

/-- An object reaches what its properties reach. -/
theorem reaches_object {s : Spec} {v : Visibility} {m : Model} {properties : List Property}
    (hm : m.isObject = true) (h : s.allProperties m = .ok properties) :
    s.Reaches v (.model m) ↔ ∃ p ∈ properties, s.Reaches v (.property p) := by
  constructor
  · rintro ⟨q, hq, homits⟩
    rcases ReflTransGen.cases_head hq with heq | ⟨b, hb, hrest⟩
    · exact Place.noConfusion heq
    · obtain ⟨p, hp, rfl⟩ := List.mem_map.1 ((step_properties hm h).1 hb)
      exact ⟨p, hp, q, hrest, homits⟩
  · rintro ⟨p, hp, hreach⟩
    exact hreach.of_step ((step_properties hm h).2 (List.mem_map_of_mem hp))

/-! ## §4. Clear places. -/

/-- Every way from the place to a property that is required and flagged passes one of the models. -/
inductive Clear (s : Spec) (v : Visibility) (names : List String) : Place → Prop
  | model {m : Model} (h : m.name ∈ names) : Clear s v names (.model m)
  | schema {c : Schema} (h : ∀ b, Step s (.schema c) b → Clear s v names b) :
      Clear s v names (.schema c)
  | property {p : Property} (homits : v.omits p = false)
      (h : ∀ b, Step s (.property p) b → Clear s v names b) : Clear s v names (.property p)

/-- The places next to the model are clear. -/
def Settled (s : Spec) (v : Visibility) (names : List String) (m : Model) : Prop :=
  ∀ b, Step s (.model m) b → s.Clear v names b

theorem Clear.mono {s : Spec} {v : Visibility} {names more : List String} (hsub : names ⊆ more)
    {place : Place} (h : s.Clear v names place) : s.Clear v more place := by
  induction h with
  | model h => exact .model (hsub h)
  | schema _ ih => exact .schema ih
  | property homits _ ih => exact .property homits ih

theorem Settled.mono {s : Spec} {v : Visibility} {names more : List String} (hsub : names ⊆ more)
    {m : Model} (h : s.Settled v names m) : s.Settled v more m := fun b hb => (h b hb).mono hsub

/-- A step from a clear place leads to a clear one, where the models of the set are settled. -/
theorem Clear.step {s : Spec} {v : Visibility} {names : List String}
    (hnames : ∀ m, s.IsDeclared m → m.name ∈ names → s.Settled v names m) {a b : Place}
    (ha : s.Clear v names a) (hdeclared : ∀ m, a = .model m → s.IsDeclared m) (hab : Step s a b) :
    s.Clear v names b ∧ ∀ m, b = .model m → s.IsDeclared m := by
  constructor
  · cases ha with
    | model h => exact hnames _ (hdeclared _ rfl) h b hab
    | schema h => exact h b hab
    | property _ h => exact h b hab
  · rintro m rfl
    cases hab with
    | reference h => exact isDeclared_of_getModel h

/-- **Nothing is reached from a clear place, where the models of the set are settled.** -/
theorem Clear.not_reaches {s : Spec} {v : Visibility} {names : List String}
    (hnames : ∀ m, s.IsDeclared m → m.name ∈ names → s.Settled v names m) {place : Place}
    (hplace : s.Clear v names place) (hdeclared : ∀ m, place = .model m → s.IsDeclared m) :
    ¬ s.Reaches v place := by
  rintro ⟨p, hpath, homits⟩
  have hclear : ∀ b, ReflTransGen (Step s) place b →
      s.Clear v names b ∧ ∀ m, b = .model m → s.IsDeclared m := by
    intro b hb
    induction hb with
    | refl => exact ⟨hplace, hdeclared⟩
    | tail _ hstep ih => exact ih.1.step hnames ih.2 hstep
  cases (hclear _ hpath).1 with
  | property hnot _ =>
    rw [homits] at hnot
    exact Bool.noConfusion hnot

end Spec

end OpenApi
