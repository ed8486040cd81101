/-
  OpenApi.Proofs.Spec.Stored — the schemas and references that a spec holds.

  Schemas stand in models, parameters, bodies and responses, and inside other schemas; references stand in
  schemas, and in models as super models, members of unions and targets of mappings. A reference resolves if
  a model has its text.
-/
import OpenApi.Proofs.Outcome
import OpenApi.Proofs.Spec.Changes
import OpenApi.Spec.Composition

namespace OpenApi

/-! ## §1. Schemas inside schemas. -/

/-- A schema is part of another: it is that schema, or part of its items, values or properties. -/
inductive Schema.Part (c : Schema) : Schema → Prop
  | self : Part c c
  | items {a : ArraySchema} (h : Part c a.items) : Part c (.array a)
  | values {values : Schema} (h : Part c values) : Part c (.record values)
  | property {properties : List Property} {p : Property} (hp : p ∈ properties)
      (h : Part c p.schema) : Part c (.object properties)

@[simp] theorem Schema.references_ref (r : SchemaRef) : (Schema.ref r).references = [r] := by
  simp [Schema.references]

@[simp] theorem Schema.references_array (a : ArraySchema) :
    (Schema.array a).references = a.items.references := by
  cases a
  simp [Schema.references]

@[simp] theorem Schema.references_record (values : Schema) :
    (Schema.record values).references = values.references := by
  simp [Schema.references]

@[simp] theorem Schema.references_object (properties : List Property) :
    (Schema.object properties).references = referencesOfProperties properties := by
  simp [Schema.references]

@[simp] theorem referencesOfProperties_nil : referencesOfProperties [] = [] := by
  simp [referencesOfProperties]

@[simp] theorem referencesOfProperties_cons (p : Property) (rest : List Property) :
    referencesOfProperties (p :: rest) = p.schema.references ++ referencesOfProperties rest := by
  cases p
  simp [referencesOfProperties]

/-- The references of properties are those of their schemas. -/
theorem referencesOfProperties_eq (properties : List Property) :
    referencesOfProperties properties = properties.flatMap fun p => p.schema.references := by
  induction properties with
  | nil => simp
  | cons p rest ih => simp [ih]

theorem referencesOfProperties_append (properties more : List Property) :
    referencesOfProperties (properties ++ more) =
      referencesOfProperties properties ++ referencesOfProperties more := by
  rw [referencesOfProperties_eq, List.flatMap_append, ← referencesOfProperties_eq,
    ← referencesOfProperties_eq]

theorem mem_referencesOfProperties {r : SchemaRef} {properties : List Property} :
    r ∈ referencesOfProperties properties ↔ ∃ p ∈ properties, r ∈ p.schema.references := by
  rw [referencesOfProperties_eq, List.mem_flatMap]

/-- A schema has the references of its parts. -/
theorem Schema.Part.references {c d : Schema} (h : Schema.Part c d) : c.references ⊆ d.references := by
  induction h with
  | self => exact fun _ hr => hr
  | items _ ih => simpa using ih
  | values _ ih => simpa using ih
  | property hp _ ih =>
    intro r hr
    rw [Schema.references_object]
    exact mem_referencesOfProperties.2 ⟨_, hp, ih hr⟩

/-! ## §2. What models and operations hold. -/

/-- The properties that a model declares itself: those of an allOf model stand in its inline objects. -/
def Model.declared : Model → List Property
  | .generic m => m.properties
  | .allOf m => m.inlineSupers.flatten
  | .enumeration _ => []
  | .oneOf _ => []
  | .array _ => []

/-- The schemas that a model is made of. -/
def Model.schemas : Model → List Schema
  | .array m => [m.array.items]
  | m => m.declared.map (·.schema)

theorem Model.schema_mem {m : Model} {p : Property} (hp : p ∈ m.declared) : p.schema ∈ m.schemas := by
  cases m with
  | array _ => exact absurd hp List.not_mem_nil
  | generic _ | allOf _ | enumeration _ | oneOf _ => exact List.mem_map_of_mem hp

/-- The references of a model that stand in none of its schemas. -/
def Model.links : Model → List SchemaRef
  | .oneOf m => m.members ++ m.discriminator.mapping.map (·.2)
  | .allOf m => m.supers
  | .generic _ => []
  | .enumeration _ => []
  | .array _ => []

/-- The references of a model. -/
def Model.references (m : Model) : List SchemaRef := m.schemas.flatMap Schema.references ++ m.links

@[simp] theorem Model.references_generic (m : GenericModel) :
    (Model.generic m).references = referencesOfProperties m.properties := by
  simp [Model.references, Model.schemas, Model.declared, Model.links, referencesOfProperties_eq,
    List.flatMap_map]

@[simp] theorem Model.references_enumeration (m : EnumModel) : (Model.enumeration m).references = [] :=
  rfl

@[simp] theorem Model.references_oneOf (m : OneOfModel) :
    (Model.oneOf m).references = m.members ++ m.discriminator.mapping.map (·.2) := rfl

@[simp] theorem Model.references_allOf (m : AllOfModel) :
    (Model.allOf m).references = referencesOfProperties m.inlineSupers.flatten ++ m.supers := by
  simp only [Model.references, Model.schemas, Model.declared, Model.links, referencesOfProperties_eq,
    List.flatMap_map]

@[simp] theorem Model.references_array (m : ArrayModel) :
    (Model.array m).references = m.array.items.references := by
  simp [Model.references, Model.schemas, Model.links]

/-- The schemas of contents. -/
def Contents.schemas (contents : Contents) : List Schema := contents.map (·.2.schema)

/-- The references of contents. -/
def Contents.references (contents : Contents) : List SchemaRef :=
  contents.flatMap fun entry => entry.2.schema.references

/-- The schemas of the parameters, bodies and responses of an operation. -/
def Operation.schemas (o : Operation) : List Schema :=
  o.parameters.map (·.schema) ++ Contents.schemas o.requestBodies ++
    o.responses.flatMap fun response => Contents.schemas response.contents

/-- The references of an operation. -/
def Operation.references (o : Operation) : List SchemaRef := o.schemas.flatMap Schema.references

/-- The references of an operation are those of its parameters, bodies and responses. -/
theorem Operation.references_eq (o : Operation) :
    o.references = o.parameters.flatMap (fun p => p.schema.references) ++
      Contents.references o.requestBodies ++
        o.responses.flatMap fun response => Contents.references response.contents := by
  unfold Operation.references Operation.schemas Contents.schemas Contents.references
  simp only [List.flatMap_append, List.flatMap_map, List.flatMap_assoc]

namespace Spec

/-! ## §3. What a spec holds. -/

/-- The schema stands somewhere in the spec. -/
inductive Stores (s : Spec) (c : Schema) : Prop
  | model {m : Model} {top : Schema} (hm : s.IsDeclared m) (htop : top ∈ m.schemas)
      (h : c.Part top) : Stores s c
  | operation {o : Operation} {top : Schema} (ho : o ∈ s.operations) (htop : top ∈ o.schemas)
      (h : c.Part top) : Stores s c

/-- The reference stands somewhere in the spec. -/
inductive StoresReference (s : Spec) (r : SchemaRef) : Prop
  | model {m : Model} (hm : s.IsDeclared m) (h : r ∈ m.references) : StoresReference s r
  | operation {o : Operation} (ho : o ∈ s.operations) (h : r ∈ o.references) : StoresReference s r

/-- A model has the text of the reference. -/
def Resolves (s : Spec) (r : SchemaRef) : Prop := ∃ m, s.getModel r = .ok m

/-- All references that stand in the spec resolve. -/
def AllResolve (s : Spec) : Prop := ∀ r, s.StoresReference r → s.Resolves r

/-- All references in the schema resolve. -/
def ResolvesIn (s : Spec) (c : Schema) : Prop := ∀ r ∈ c.references, s.Resolves r

/-- The properties of every model of the spec can be put together. -/
def AllFlatten (s : Spec) : Prop := ∀ m, s.IsDeclared m → ∃ ps, s.allProperties m = .ok ps

instance (s : Spec) (r : SchemaRef) : Decidable (s.Resolves r) :=
  decidable_of_iff ((s.getModel r).isOk = true) Outcome.isOk_iff

theorem allResolve_iff {s : Spec} : s.AllResolve ↔
    (∀ m ∈ s.arena, ∀ r ∈ m.references, s.Resolves r) ∧
      ∀ o ∈ s.operations, ∀ r ∈ o.references, s.Resolves r := by
  constructor
  · intro h
    exact ⟨fun m hm r hr => h r (.model hm hr), fun o ho r hr => h r (.operation ho hr)⟩
  · rintro ⟨hmodels, hoperations⟩ r hr
    cases hr with
    | model hm hr => exact hmodels _ hm r hr
    | operation ho hr => exact hoperations _ ho r hr

instance (s : Spec) : Decidable s.AllResolve := decidable_of_iff _ allResolve_iff.symm

theorem allFlatten_iff {s : Spec} : s.AllFlatten ↔ ∀ m ∈ s.arena, (s.allProperties m).isOk = true :=
  forall₂_congr fun _ _ => Outcome.isOk_iff.symm

instance (s : Spec) : Decidable s.AllFlatten := decidable_of_iff _ allFlatten_iff.symm

/-- The references in a schema of a spec are references of the spec. -/
theorem Stores.reference {s : Spec} {c : Schema} (h : s.Stores c) {r : SchemaRef}
    (hr : r ∈ c.references) : s.StoresReference r := by
  cases h with
  | model hm htop hpart =>
    exact .model hm (List.mem_append_left _ (List.mem_flatMap.2 ⟨_, htop, hpart.references hr⟩))
  | operation ho htop hpart =>
    exact .operation ho (List.mem_flatMap.2 ⟨_, htop, hpart.references hr⟩)

theorem AllResolve.resolvesIn {s : Spec} (hs : s.AllResolve) {c : Schema} (hc : s.Stores c) :
    s.ResolvesIn c := fun _ hr => hs _ (hc.reference hr)

/-- A link of a model of a spec is a reference of the spec. -/
theorem storesReference_of_link {s : Spec} {m : Model} (hm : s.IsDeclared m) {r : SchemaRef}
    (hr : r ∈ m.links) : s.StoresReference r := .model hm (List.mem_append_right _ hr)

/-- The schemas that a model is made of stand in the spec. -/
theorem stores_of_schema {s : Spec} {m : Model} (hm : s.IsDeclared m) {c : Schema}
    (hc : c ∈ m.schemas) : s.Stores c := .model hm hc .self

end Spec

end OpenApi
