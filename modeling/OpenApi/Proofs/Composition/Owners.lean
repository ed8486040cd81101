/-
  OpenApi.Proofs.Composition.Owners — the models that properties belong to.

  A property is told which model declares it when that model is read, and keeps the name wherever it is inherited. So
  each property of a model of a build belongs to that model or to one that it inherits from, and stands there as it is
  listed, but for being required. Main statement: `owns_of_build`.
-/
import OpenApi.Proofs.Build.Additions
import OpenApi.Proofs.Build.Results
import OpenApi.Proofs.Build.Validation
import OpenApi.Proofs.Composition.Origin
import OpenApi.Proofs.Keyed
import OpenApi.Proofs.Spec.Numbers

namespace OpenApi

/-- All properties that the model declares name it as their owner. -/
def Model.OwnsDeclared (m : Model) : Prop := ∀ p ∈ m.declared, p.owner = some m.name

/-- All properties name the owner. -/
def OwnedBy (owner : Option String) (properties : List Property) : Prop := ∀ p ∈ properties, p.owner = owner

/-! ## §1. Generic models. -/

/-- A property that is inserted into a model gets its name. -/
theorem ownsDeclared_foldl_insert (name : String) (properties : List Property) (description : Option String) :
    (Model.generic { properties.foldl GenericModel.insert (.empty name) with description }).OwnsDeclared := by
  have hname : (properties.foldl GenericModel.insert (.empty name)).name = name := Build.name_foldl_insert (.empty name)
  intro p hp
  show p.owner = some (properties.foldl GenericModel.insert (.empty name)).name
  rw [hname]
  rcases Build.mem_foldl_insert hp with hp | ⟨q, -, rfl⟩
  · exact absurd hp List.not_mem_nil
  · rfl

namespace Build

open Building (Gives)

/-! ## §2. AllOf models. -/

theorem readProperty_owned (build : Mapping → Building Schema) (owner : Owner) (name : String) (required : Bool)
    (m : Mapping) : (readProperty build owner name required m).Gives fun p => p.owner = owner.model := by
  unfold readProperty
  refine .after fun _ => .after fun _ => .after fun _ => .after fun _ => .after fun _ => .after fun _ => ?_
  exact .pure rfl

theorem readObject_owned (build : Owner → Mapping → Building Schema) (owner : Owner) (m : Mapping) :
    (readObject build owner m).Gives (OwnedBy owner.model) := by
  unfold readObject readProperties
  have hnone : OwnedBy owner.model [] := fun p hp => absurd hp List.not_mem_nil
  refine .after fun required => Gives.bind (Q := OwnedBy owner.model) (.after fun found => ?_) fun ps hps => .pure ?_
  · split
    next => exact .pure hnone
    next => exact .after fun entries => Gives.mapM fun e => readProperty_owned _ _ _ _ _
  · intro p hp
    exact (Keyed.mem_putAll (hp : p ∈ Keyed.putAll Property.name [] ps)).elim (hnone p) (hps p)

/-- The inline properties of the model name it as their owner. -/
def InlineOwned (a : AllOfModel) : Prop := OwnedBy (some a.name) a.inlineSupers.flatten

theorem readMember_owned (a : AllOfModel) (m : Mapping) (ha : InlineOwned a) : (readMember a m).Gives InlineOwned := by
  unfold readMember
  split
  next => exact .after fun r => .pure ha
  split
  next =>
    refine .after fun _ => Gives.bind (readObject_owned _ _ m) fun object hobject => .after fun required => .pure ?_
    intro p hp
    rw [List.flatten_append, List.flatten_singleton] at hp
    exact (List.mem_append.1 hp).elim (ha p) (hobject p)
  split
  next => exact .after fun _ => .after fun required => .pure ha
  split
  next => exact .after fun _ => .after fun _ => .pure ha
  next => exact .throw

/-- Making properties required leaves them to their owner. -/
theorem inlineOwned_markRequired {a : AllOfModel} (ha : InlineOwned a) : InlineOwned (markRequired a) := by
  intro p hp
  obtain ⟨object, hobject, hp⟩ := List.mem_flatten.1 hp
  obtain ⟨declared, hdeclared, rfl⟩ := List.mem_map.1 hobject
  obtain ⟨q, hq, rfl⟩ := List.mem_map.1 hp
  exact ha q (List.mem_flatten.2 ⟨declared, hdeclared, hq⟩)

theorem readAllOf_owned (name : String) (description : Option String) (m : Mapping) :
    (readAllOf name description m).Gives InlineOwned := by
  have hnone : ∀ required, InlineOwned ⟨name, description, required, [], []⟩ := fun _ p hp => absurd hp List.not_mem_nil
  unfold readAllOf
  refine .after fun _ => .after fun required => .after fun found => .after fun members => .after fun members => ?_
  refine Gives.bind (Gives.foldlM (fun a m ha => readMember_owned a m ha) _ (hnone required)) fun a ha => ?_
  exact .pure (inlineOwned_markRequired ha)

/-! ## §3. Builds. -/

/-- **A model that is read owns what it declares.** -/
theorem ModelRead.ownsDeclared {model : Model} (h : ModelRead model) : model.OwnsDeclared := by
  have hnone : ∀ {model : Model}, model.declared = [] → model.OwnsDeclared := by
    intro model hempty p hp
    rw [hempty] at hp
    exact absurd hp List.not_mem_nil
  cases h with
  | promoted _ description => exact ownsDeclared_foldl_insert _ _ description
  | @named name m model session after hrun =>
    -- Only generic and allOf models declare properties; the other kinds are read to be models without any.
    revert hrun
    suffices hgives : (readModel name m).Gives Model.OwnsDeclared from hgives session model after
    unfold readModel
    refine .after fun _ => .after fun description => ?_
    split
    next =>
      refine .map ?_
      unfold readGeneric
      exact .after fun _ => .after fun required => .after fun properties => .pure (ownsDeclared_foldl_insert _ _ _)
    split
    next => exact .map fun _ _ _ _ => hnone rfl
    split
    next => exact .map fun session a after hrun => readAllOf_owned name _ m session a after hrun
    split
    next => exact .map fun _ _ _ _ => hnone rfl
    refine .after fun typeName => ?_
    split
    next => exact .after fun array => .pure (hnone rfl)
    next => exact .throw

end Build

namespace Spec

/-- The property of the first model belongs to the second, from which the first may inherit it: it is declared there
just as it is, unless it is required because the first model, or one that it inherits from, says so. -/
structure Owns (s : Spec) (m o : Model) (p : Property) : Prop where
  owner : p.owner = some o.name
  named : s.modelNamed? o.name = some o
  inherits : s.Inherits m o
  declared : ∃ q ∈ o.declared, p = q.withRequired p.required ∧
    (p.required ≠ q.required → p.required = true ∧ s.Requires m p.name)

/-- Where models own what they declare, each property belongs to a model. -/
theorem exists_owner {s : Spec} (hs : s.Made) (howns : ∀ m, s.IsDeclared m → m.OwnsDeclared) {m : Model}
    (hm : s.IsDeclared m) {ps : List Property} (h : s.allProperties m = .ok ps) : ∀ p ∈ ps, ∃ o, s.Owns m o p := by
  intro p hp
  -- Where the property comes from is known; its owner is the name of that model, since a copy keeps the owner.
  obtain ⟨o, ho, q, hq, heq, hrequired⟩ := (originates_of_allProperties h hp).withRequired
  have hdeclared : s.IsDeclared o := ho.isDeclared hm
  have hnamed : s.modelNamed? o.name = some o :=
    (hs.inStep.modelNamed?_eq_some_iff hs.namesDistinct).2 ⟨hdeclared, rfl⟩
  refine ⟨o, ?_, hnamed, ho, q, hq, heq, hrequired⟩
  rw [heq]
  exact howns o hdeclared q hq

end Spec

/-- **Each property belongs to a model.** In a spec that was built with validation, all properties of a model can be
listed, and each belongs to the model or to one that it inherits from. -/
theorem Build.owns_of_build {loader : Loader} {options : Options} {entry : String} {s : Spec}
    (hvalidate : options.validateReferences = true) (h : (build loader options entry).2 = .ok s) {m : Model}
    (hm : s.IsDeclared m) : ∃ ps, s.allProperties m = .ok ps ∧ ∀ p ∈ ps, ∃ o, s.Owns m o p := by
  obtain ⟨⟨hmade, -⟩, v, hcheck⟩ := build_ok h
  obtain ⟨ps, hps⟩ := Spec.allFlatten_of_checkCompositions (check_validated hcheck hvalidate).2 m hm
  exact ⟨ps, hps, Spec.exists_owner hmade (fun o ho => (modelRead_of_build h ho).ownsDeclared) hm hps⟩

/-! ## §4. In the listing. -/

namespace Build.Listing

/-- What is told of a property: its name and owner, and whether it is required. -/
structure Told where
  name : String
  owner : Option String
  required : Bool
  deriving DecidableEq

/-- The properties of the model of a name. -/
def told (name : String) (s : Spec) : List Told :=
  match s.modelNamed? name with
  | some m => ((s.allProperties m).toOption.getD []).map fun p => ⟨p.name, p.owner, p.required⟩
  | none => []

end Build.Listing

open Build Listing in
/-- In the listing, `Node` requires the `id` that belongs to `Entity`, where it is not required. -/
theorem owns_of_build_of_listing :
    ({} : Options).validateReferences = true ∧
      ∃ s m p o, (build (.memory [("api.yaml", .ok document)]) {} "api.yaml").2 = .ok s ∧
        s.modelNamed? "Node" = some m ∧ p.name = "id" ∧ p.required = true ∧ s.Owns m o p ∧ o.name = "Entity" := by
  have hbuilt : ((build (.memory [("api.yaml", .ok document)]) {} "api.yaml").2.map (told "Node")).toOption =
      some [⟨"id", some "Entity", true⟩, ⟨"next", some "Node", false⟩] := by decide +kernel
  obtain ⟨s, hbuild, htold⟩ := Outcome.exists_of_map hbuilt
  -- the property that is told tells the model and the list in which the theorem finds its owner
  have hid : ⟨"id", some "Entity", true⟩ ∈ told "Node" s := htold ▸ List.mem_cons_self
  unfold told at hid
  cases hm : s.modelNamed? "Node" with
  | none =>
    rw [hm] at hid
    exact absurd hid List.not_mem_nil
  | some m =>
    obtain ⟨ps, hps, howned⟩ := owns_of_build rfl hbuild (Spec.isDeclared_of_modelNamed? hm)
    rw [hm] at hid
    dsimp only at hid
    rw [hps] at hid
    obtain ⟨p, hp, heq⟩ := List.mem_map.1 hid
    obtain ⟨hname, howner, hrequired⟩ := Told.mk.inj heq
    obtain ⟨o, ho⟩ := howned p hp
    exact ⟨rfl, s, m, p, o, hbuild, hm, hname, hrequired, ho, Option.some.inj (ho.owner.symm.trans howner)⟩

end OpenApi
