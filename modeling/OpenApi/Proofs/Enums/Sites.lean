/-
  OpenApi.Proofs.Enums.Sites — where enumerations are declared.

  An enumeration that is declared in place bears two tags, the name of a model and that of a property. What tells it
  apart is its site: the model, parameter or body that holds it, and the properties that lead to it there. Where
  schemas are tagged as they are read (`EnumsTagged`), the site tells the tags and the enumeration
  (`EnumsTagged.eq_of_site`).
-/
import OpenApi.Build.Operations
import OpenApi.Proofs.Spec.Groups

namespace OpenApi

/-! ## §1. In schemas. -/

mutual

/-- The enumerations in a schema, each with the properties that lead to it. -/
def Schema.enums : Schema → List (List String × EmbeddedEnum)
  | .embeddedEnum e => [([], e)]
  | .array ⟨items, _, _, _⟩ => items.enums
  | .record values => values.enums
  | .object properties => enumsOfProperties properties
  | _ => []

/-- The enumerations in the schemas of properties. -/
def enumsOfProperties : List Property → List (List String × EmbeddedEnum)
  | [] => []
  | ⟨name, _, _, _, _, _, _, _, schema⟩ :: rest =>
    (schema.enums.map fun x => (name :: x.1, x.2)) ++ enumsOfProperties rest

end

@[simp] theorem Schema.enums_embeddedEnum (e : EmbeddedEnum) : (Schema.embeddedEnum e).enums = [([], e)] := by
  simp [Schema.enums]

@[simp] theorem Schema.enums_array (a : ArraySchema) : (Schema.array a).enums = a.items.enums := by
  cases a
  simp [Schema.enums]

@[simp] theorem Schema.enums_record (values : Schema) : (Schema.record values).enums = values.enums := by
  simp [Schema.enums]

theorem enumsOfProperties_eq (properties : List Property) : enumsOfProperties properties =
    properties.flatMap fun p => p.schema.enums.map fun x => (p.name :: x.1, x.2) := by
  induction properties with
  | nil => simp [enumsOfProperties]
  | cons p rest ih =>
    cases p
    simp [enumsOfProperties, ih]

/-- An enumeration in an object is in one of its properties, of which the name leads to it. -/
theorem Schema.mem_enums_object {properties : List Property} {path : List String} {e : EmbeddedEnum} :
    (path, e) ∈ (Schema.object properties).enums ↔
      ∃ p ∈ properties, ∃ inner, (inner, e) ∈ p.schema.enums ∧ path = p.name :: inner := by
  rw [Schema.enums, enumsOfProperties_eq, List.mem_flatMap]
  constructor
  · rintro ⟨p, hp, hmem⟩
    obtain ⟨⟨inner, e'⟩, hx, heq⟩ := List.mem_map.1 hmem
    obtain ⟨rfl, rfl⟩ := Prod.mk.inj heq
    exact ⟨p, hp, inner, hx, rfl⟩
  · rintro ⟨p, hp, inner, hx, rfl⟩
    exact ⟨p, hp, List.mem_map.2 ⟨(inner, e), hx, rfl⟩⟩

/-- The property that an enumeration below some properties of an owner is tagged with: the innermost one. -/
def Build.Owner.innermost (owner : Owner) (path : List String) : Option String := path.getLast?.or owner.property

theorem Build.Owner.innermost_cons (owner : Owner) (name : String) (path : List String) :
    owner.innermost (name :: path) = (owner.at name).innermost path := by
  cases path with
  | nil => rfl
  | cons next rest =>
    unfold innermost
    rw [List.getLast?_cons_cons, List.getLast?_eq_some_getLast (List.cons_ne_nil next rest), Option.some_or,
      Option.some_or]

/-- The enumerations of the schema bear the tags of the owner, or of the innermost property that leads to them, and no
two are reached by the same properties. -/
structure Schema.Tagged (owner : Build.Owner) (c : Schema) : Prop where
  tags : ∀ path e, (path, e) ∈ c.enums →
    e.declaredModel = owner.model ∧ e.declaredProperty = owner.innermost path
  unique : ∀ path e f, (path, e) ∈ c.enums → (path, f) ∈ c.enums → e = f

namespace Schema.Tagged

variable {owner : Build.Owner} {properties : List Property}

theorem of_enums_nil {c : Schema} (h : c.enums = []) : c.Tagged owner where
  tags _ _ hmem := absurd (h ▸ hmem) List.not_mem_nil
  unique _ _ _ hmem := absurd (h ▸ hmem) List.not_mem_nil

theorem enumeration {e : EmbeddedEnum} (hmodel : e.declaredModel = owner.model)
    (hproperty : e.declaredProperty = owner.property) : (Schema.embeddedEnum e).Tagged owner where
  tags path f hmem := by
    rw [enums_embeddedEnum, List.mem_singleton] at hmem
    obtain ⟨rfl, rfl⟩ := Prod.mk.inj hmem
    exact ⟨hmodel, hproperty⟩
  unique path f g hf hg := by
    rw [enums_embeddedEnum, List.mem_singleton] at hf hg
    rw [(Prod.mk.inj hf).2, (Prod.mk.inj hg).2]

theorem array {a : ArraySchema} (h : a.items.Tagged owner) : (Schema.array a).Tagged owner where
  tags path e hmem := h.tags path e (Schema.enums_array a ▸ hmem)
  unique path e f he hf := h.unique path e f (Schema.enums_array a ▸ he) (Schema.enums_array a ▸ hf)

theorem record {values : Schema} (h : values.Tagged owner) : (Schema.record values).Tagged owner where
  tags path e hmem := h.tags path e (Schema.enums_record values ▸ hmem)
  unique path e f he hf := h.unique path e f (Schema.enums_record values ▸ he) (Schema.enums_record values ▸ hf)

/-- An object of which the properties are tagged with their names. -/
theorem object (hdistinct : (properties.map Property.name).Nodup)
    (h : ∀ p ∈ properties, p.schema.Tagged (owner.at p.name)) : (Schema.object properties).Tagged owner where
  tags path e hmem := by
    obtain ⟨p, hp, inner, hx, rfl⟩ := Schema.mem_enums_object.1 hmem
    obtain ⟨hmodel, hproperty⟩ := (h p hp).tags inner e hx
    exact ⟨hmodel, hproperty.trans (owner.innermost_cons p.name inner).symm⟩
  unique path e f he hf := by
    obtain ⟨p, hp, inner, hx, rfl⟩ := Schema.mem_enums_object.1 he
    obtain ⟨q, hq, inner', hy, heq⟩ := Schema.mem_enums_object.1 hf
    obtain ⟨hname, rfl⟩ := List.cons.inj heq
    obtain rfl : p = q := List.inj_on_of_nodup_map hdistinct hp hq hname
    exact (h p hp).unique inner e f hx hy

/-- The properties of a tagged object are tagged with their names. -/
theorem property (h : (Schema.object properties).Tagged owner) {p : Property} (hp : p ∈ properties) :
    p.schema.Tagged (owner.at p.name) where
  tags path e hmem := by
    obtain ⟨hmodel, hproperty⟩ := h.tags _ e (Schema.mem_enums_object.2 ⟨p, hp, path, hmem, rfl⟩)
    exact ⟨hmodel, hproperty.trans (owner.innermost_cons p.name path)⟩
  unique path e f he hf :=
    h.unique (p.name :: path) e f (Schema.mem_enums_object.2 ⟨p, hp, path, he, rfl⟩)
      (Schema.mem_enums_object.2 ⟨p, hp, path, hf, rfl⟩)

end Schema.Tagged

/-! ## §2. In specs. -/

/-- What holds enumerations. -/
inductive Holder
  /-- An inline member of a model; all but allOf models have one at most. -/
  | member (model : String) (index : Nat)
  | parameter (operation : String) (location : ParameterLocation)
  /-- A content of the request body of an operation, or of one of its responses, and the name that models for it get. -/
  | content (model operation : String) (body : Nat) (contentType : String)
  deriving DecidableEq, Repr

/-- The model that enumerations in the holder are tagged with. -/
def Holder.tag : Holder → String
  | .member model _ => model
  | .parameter operation _ => Text.pascalCase operation
  | .content model _ _ _ => model

/-- Where an enumeration is declared. -/
structure Site where
  holder : Holder
  /-- The properties that lead to it, from the outermost one; that of a parameter is the parameter itself. -/
  path : List String
  deriving DecidableEq, Repr

/-- The schemas that a model is made of, the properties of one object together. -/
def Model.members : Model → List Schema
  | .generic g => [.object g.properties]
  | .allOf a => a.inlineSupers.map Schema.object
  | .array a => [a.array.items]
  | .enumeration _ => []
  | .oneOf _ => []

/-- The enumerations in a model. -/
def Model.enums (m : Model) : List (Site × EmbeddedEnum) :=
  m.members.zipIdx.flatMap fun c => c.1.enums.map fun x => (⟨.member m.name c.2, x.1⟩, x.2)

/-- The contents of the request body and of each response, with the names that models for them get. -/
def Operation.bodies (o : Operation) : List (String × Contents) :=
  let typeName := Text.pascalCase o.operationId
  (typeName ++ "Request", o.requestBodies) ::
    o.responses.map fun r => (typeName ++ Text.pascalCase r.status.text ++ "Response", r.contents)

/-- The enumerations in the parameters and bodies of an operation. -/
def Operation.enums (o : Operation) : List (Site × EmbeddedEnum) :=
  (o.parameters.flatMap fun p =>
    p.schema.enums.map fun x => (⟨.parameter o.operationId p.location, p.name :: x.1⟩, x.2)) ++
  o.bodies.zipIdx.flatMap fun b => b.1.2.flatMap fun c =>
    c.2.schema.enums.map fun x => (⟨.content b.1.1 o.operationId b.2 c.1, x.1⟩, x.2)

namespace Spec

/-- The enumerations in a spec that are declared in place, each with its site. -/
def enums (s : Spec) : List (Site × EmbeddedEnum) :=
  s.arena.flatMap Model.enums ++ s.operations.flatMap Operation.enums

/-- The enumeration stands in the spec at the site. -/
def Declares (s : Spec) (site : Site) (e : EmbeddedEnum) : Prop :=
  match site.holder with
  | .member name i => ∃ m, s.IsDeclared m ∧ m.name = name ∧ ∃ c, m.members[i]? = some c ∧ (site.path, e) ∈ c.enums
  | .parameter id location => ∃ o ∈ s.operations, o.operationId = id ∧ ∃ p ∈ o.parameters, p.location = location ∧
      ∃ inner, site.path = p.name :: inner ∧ (inner, e) ∈ p.schema.enums
  | .content model id i contentType => ∃ o ∈ s.operations, o.operationId = id ∧ ∃ b, o.bodies[i]? = some b ∧
      b.1 = model ∧ ∃ c ∈ b.2, c.1 = contentType ∧ (site.path, e) ∈ c.2.schema.enums

theorem declares_of_mem_enums {s : Spec} {site : Site} {e : EmbeddedEnum} (h : (site, e) ∈ s.enums) :
    s.Declares site e := by
  unfold enums at h
  -- the three places of a list of enumerations: members of models, parameters, and bodies of operations
  rcases List.mem_append.1 h with h | h
  · obtain ⟨m, hm, h⟩ := List.mem_flatMap.1 h
    obtain ⟨c, hc, h⟩ := List.mem_flatMap.1 h
    obtain ⟨x, hx, heq⟩ := List.mem_map.1 h
    obtain ⟨rfl, rfl⟩ := Prod.mk.inj heq
    exact ⟨m, hm, rfl, c.1, List.mem_zipIdx_iff_getElem?.1 hc, hx⟩
  · obtain ⟨o, ho, h⟩ := List.mem_flatMap.1 h
    rcases List.mem_append.1 h with h | h
    · obtain ⟨p, hp, h⟩ := List.mem_flatMap.1 h
      obtain ⟨x, hx, heq⟩ := List.mem_map.1 h
      obtain ⟨rfl, rfl⟩ := Prod.mk.inj heq
      exact ⟨o, ho, rfl, p, hp, rfl, x.1, rfl, hx⟩
    · obtain ⟨b, hb, h⟩ := List.mem_flatMap.1 h
      obtain ⟨c, hc, h⟩ := List.mem_flatMap.1 h
      obtain ⟨x, hx, heq⟩ := List.mem_map.1 h
      obtain ⟨rfl, rfl⟩ := Prod.mk.inj heq
      exact ⟨o, ho, rfl, b.1, List.mem_zipIdx_iff_getElem?.1 hb, rfl, c, hc, rfl, hx⟩

end Spec

/-! ## §3. Tags. -/

/-- Has the enumeration both tags? -/
def EmbeddedEnum.IsTagged (e : EmbeddedEnum) : Prop := e.declaredModel.isSome = true ∧ e.declaredProperty.isSome = true

/-- All schemas of the model bear its tag. -/
def Model.EnumsTagged (m : Model) : Prop := ∀ c ∈ m.members, c.Tagged (.ofModel m.name)

/-- The schemas of the parameters bear the tag of the operation, and of those no two share name and place; or they bear
no tag of a model. The schemas of bodies bear the tags of their models, and no two contents of one body share a type. -/
structure Operation.EnumsTagged (o : Operation) : Prop where
  parameters : ∃ common : List Parameter, (∀ p ∈ common, p.schema.Tagged ⟨none, some p.name⟩) ∧
    (∀ p ∈ o.parameters, p ∉ common → p.schema.Tagged ⟨some (Text.pascalCase o.operationId), some p.name⟩) ∧
    ∀ p ∈ o.parameters, ∀ q ∈ o.parameters, p ∉ common → q ∉ common →
      Build.parameterKey p = Build.parameterKey q → p = q
  bodies : ∀ b ∈ o.bodies, (b.2.map Prod.fst).Nodup ∧ ∀ c ∈ b.2, c.2.schema.Tagged (.ofModel b.1)

namespace Spec

/-- All that holds enumerations is told by its name, and tags them as they are read. -/
structure EnumsTagged (s : Spec) : Prop where
  names : s.NamesDistinct
  ids : s.ids.Nodup
  models : ∀ m, s.IsDeclared m → m.EnumsTagged
  operations : ∀ o ∈ s.operations, o.EnumsTagged

namespace EnumsTagged

variable {s : Spec} {site : Site} {e f : EmbeddedEnum}

/-- A parameter with an enumeration that has both tags belongs to the operation itself. -/
theorem own_parameter {common : List Parameter} {p : Parameter} {path : List String}
    (hcommon : ∀ p ∈ common, p.schema.Tagged ⟨none, some p.name⟩) (h : (path, e) ∈ p.schema.enums)
    (he : e.IsTagged) : p ∉ common := by
  intro hmem
  have hnone : e.declaredModel = none := ((hcommon p hmem).tags path e h).1
  have hsome := he.1
  rw [hnone] at hsome
  exact absurd hsome nofun

/-- The site of an enumeration tells its tags, if it has both. -/
theorem tags (hs : s.EnumsTagged) (h : s.Declares site e) (he : e.IsTagged) :
    e.declaredModel = some site.holder.tag ∧ e.declaredProperty = site.path.getLast? := by
  obtain ⟨holder, path⟩ := site
  cases holder with
  | member name i =>
    obtain ⟨m, hm, rfl, c, hc, h⟩ := h
    obtain ⟨hmodel, hproperty⟩ := (hs.models m hm c (List.mem_of_getElem? hc)).tags path e h
    exact ⟨hmodel, hproperty.trans Option.or_none⟩
  | parameter id location =>
    obtain ⟨o, ho, rfl, p, hp, -, inner, rfl, h⟩ := h
    obtain ⟨common, hcommon, hown, -⟩ := (hs.operations o ho).parameters
    obtain ⟨hmodel, hproperty⟩ := (hown p hp (own_parameter hcommon h he)).tags inner e h
    have hcons := Build.Owner.innermost_cons ⟨none, none⟩ p.name inner
    exact ⟨hmodel, hproperty.trans (hcons.symm.trans Option.or_none)⟩
  | content model id i contentType =>
    obtain ⟨o, ho, -, b, hb, rfl, c, hc, -, h⟩ := h
    obtain ⟨hmodel, hproperty⟩ := (((hs.operations o ho).bodies b (List.mem_of_getElem? hb)).2 c hc).tags path e h
    exact ⟨hmodel, hproperty.trans Option.or_none⟩

theorem operation_eq (hs : s.EnumsTagged) {o o' : Operation} (ho : o ∈ s.operations) (ho' : o' ∈ s.operations)
    (h : o.operationId = o'.operationId) : o = o' := List.inj_on_of_nodup_map hs.ids ho ho' h

/-- The site of an enumeration tells it, if it has both tags. -/
theorem eq_of_site (hs : s.EnumsTagged) (hsite : s.Declares site e) (hsite' : s.Declares site f) (he : e.IsTagged)
    (hf : f.IsTagged) : e = f := by
  -- The name tells the model and the identifier the operation; what else the holder says tells the schema in it, and the
  -- path the enumeration there.
  obtain ⟨holder, path⟩ := site
  cases holder with
  | member name i =>
    obtain ⟨m, hm, rfl, c, hc, h⟩ := hsite
    obtain ⟨m', hm', hname, c', hc', h'⟩ := hsite'
    obtain rfl : m' = m := hs.names.eq_of_name_eq hm' hm hname
    obtain rfl : c' = c := Option.some.inj (hc'.symm.trans hc)
    exact (hs.models m' hm' c' (List.mem_of_getElem? hc)).unique path e f h h'
  | parameter id location =>
    obtain ⟨o, ho, rfl, p, hp, rfl, inner, rfl, h⟩ := hsite
    obtain ⟨o', ho', hid, q, hq, hlocation, inner', hpath, h'⟩ := hsite'
    obtain rfl : o' = o := hs.operation_eq ho' ho hid
    obtain ⟨hname, rfl⟩ := List.cons.inj hpath
    -- A repeated parameter can only be a common one, and those have no tag of a model.
    obtain ⟨common, hcommon, hown, hdistinct⟩ := (hs.operations o' ho).parameters
    have hpown : p ∉ common := own_parameter hcommon h he
    have hqown : q ∉ common := own_parameter hcommon h' hf
    obtain rfl : p = q := hdistinct p hp q hq hpown hqown (Prod.ext hname hlocation.symm)
    exact (hown p hp hpown).unique inner e f h h'
  | content model id i contentType =>
    obtain ⟨o, ho, rfl, b, hb, rfl, c, hc, rfl, h⟩ := hsite
    obtain ⟨o', ho', hid, b', hb', -, c', hc', htype, h'⟩ := hsite'
    obtain rfl : o' = o := hs.operation_eq ho' ho hid
    obtain rfl : b' = b := Option.some.inj (hb'.symm.trans hb)
    obtain ⟨hdistinct, htagged⟩ := (hs.operations o' ho).bodies b' (List.mem_of_getElem? hb)
    obtain rfl : c' = c := List.inj_on_of_nodup_map hdistinct hc' hc htype
    exact (htagged c' hc').unique path e f h h'

end EnumsTagged

end Spec

end OpenApi
