/-
  OpenApi.Proofs.Build.ModelReaders — reading a named schema records the references in it.
-/
import OpenApi.Build.Models
import OpenApi.Proofs.Build.SchemaReaders

namespace OpenApi.Build

open Building (Records Silent)

variable {known : List SchemaRef}

/-! ## §1. AllOf models. -/

theorem readMember_records {model : AllOfModel} (hmodel : (Model.allOf model).references ⊆ known)
    (m : Mapping) :
    Records known (readMember model m) fun a => (Model.allOf a).references := by
  rw [Model.references_allOf] at hmodel
  obtain ⟨hinline, hsupers⟩ := List.append_subset.1 hmodel
  -- what a member adds is recorded when it is read; what the model had before is known already
  unfold readMember
  split
  next =>
    refine (readReference_records m).bind fun r => .pure ?_
    rw [Model.references_allOf, ← List.append_assoc]
    exact List.append_subset.2 ⟨List.subset_append_of_subset_left _ hmodel, List.subset_append_right _ _⟩
  split
  next =>
    refine .reading fun _ => ?_
    refine (readObject_records (fun _ _ => readSchemaTo_records _ _) _ m).bind fun object => ?_
    refine .after (readTexts_silent m _) fun required => .pure ?_
    have hobject : referencesOfProperties (model.inlineSupers ++ [object]).flatten ⊆
        known ++ referencesOfProperties object := by
      rw [List.flatten_append, referencesOfProperties_append, List.flatten_singleton]
      exact List.append_subset.2
        ⟨List.subset_append_of_subset_left _ hinline, List.subset_append_right _ _⟩
    rw [Model.references_allOf]
    exact List.append_subset.2 ⟨hobject, List.subset_append_of_subset_left _ hsupers⟩
  split
  next =>
    refine .reading fun _ => .after (readTexts_silent m _) fun required => .pure ?_
    rw [Model.references_allOf]
    exact hmodel
  split
  next =>
    refine .reading fun _ => .report fun _ => .pure ?_
    rw [Model.references_allOf]
    exact hmodel
  next => exact .throw

theorem references_markRequired (model : AllOfModel) :
    (Model.allOf (markRequired model)).references = (Model.allOf model).references := by
  rw [Model.references_allOf, Model.references_allOf]
  unfold markRequired
  rw [← List.map_flatten, referencesOfProperties_eq, referencesOfProperties_eq, List.flatMap_map]

theorem readAllOf_records (name : String) (description : Option String) (m : Mapping) :
    Records known (readAllOf name description m) fun a => (Model.allOf a).references := by
  unfold readAllOf
  refine .reading fun _ => .after (readTexts_silent m _) fun required => ?_
  refine .reading fun found => .lift fun members => .lift fun members => ?_
  have hfold : Records known (members.foldlM readMember ⟨name, description, required, [], []⟩)
      fun a => (Model.allOf a).references :=
    .foldlM (fun model m _ => readMember_records (List.subset_append_right known _) m) _ (by simp)
  refine hfold.bind fun model => .pure ?_
  rw [references_markRequired]
  exact List.subset_append_right _ _

/-! ## §2. OneOf models. -/

theorem readTarget_records (m : Mapping) (value : String) :
    Records known (readTarget m value) fun entry => [entry.2] := by
  unfold readTarget
  refine .reading fun found => .lift fun raw => ?_
  split
  next => exact .throw
  next r _ =>
    exact (Records.addReference r).bind fun _ => .pure (List.subset_append_right _ _)

theorem readDiscriminator_records (m : Mapping) :
    Records known (readDiscriminator m) fun d => d.mapping.map (·.2) := by
  unfold readDiscriminator
  refine .reading fun propertyName => .reading fun found => ?_
  split
  next => exact .pure (List.nil_subset _)
  next mapping _ =>
    refine (Records.mapM fun value _ => readTarget_records mapping value).bind fun entries => .pure ?_
    intro r hr
    obtain ⟨entry, hentry, rfl⟩ := List.mem_map.1 hr
    rcases Keyed.mem_putAll hentry with hentry | hentry
    · exact absurd hentry List.not_mem_nil
    · exact List.mem_append_right _ (List.mem_flatMap.2 ⟨entry, hentry, List.mem_singleton_self _⟩)

theorem readOneOf_records (name : String) (description : Option String) (m : Mapping) :
    Records known (readOneOf name description m) fun u => (Model.oneOf u).references := by
  unfold readOneOf
  refine .reading fun _ => .reading fun found => .lift fun members => .lift fun members => ?_
  have hmembers : Records known (members.mapM fun member =>
      if member.containsKey "$ref" then readReference member
      else throw (member.unsupported
        ("inline oneOf member of '" ++ name ++ "' (declare it under components.schemas)")))
      fun rs => rs := by
    refine .mapM_refs fun member _ => ?_
    split
    next => exact readReference_records member
    next => exact .throw
  -- the members are recorded one by one, the targets of the mapping with the discriminator
  refine hmembers.bind fun members => ?_
  refine .reading fun found => ?_
  split
  next =>
    refine .pure ?_
    rw [Model.references_oneOf, List.map_nil, List.append_nil]
    exact List.subset_append_right _ _
  next d _ =>
    refine (readDiscriminator_records d).bind fun discriminator => .pure ?_
    rw [Model.references_oneOf]
    exact List.append_subset.2
      ⟨List.subset_append_of_subset_left _ (List.subset_append_right _ _), List.subset_append_right _ _⟩

/-! ## §3. Models. -/

/-- Properties are inserted one after the other, with the model as their owner. -/
theorem properties_foldl_insert (properties : List Property) :
    ∀ m : GenericModel, (properties.foldl GenericModel.insert m).properties =
      Keyed.putAll Property.name m.properties (properties.map fun p => { p with owner := some m.name }) := by
  induction properties with
  | nil => exact fun _ => rfl
  | cons p rest ih => exact fun m => ih (m.insert p)

/-- The properties of a model into which others were inserted were there or are among those. -/
theorem mem_foldl_insert {q : Property} {properties : List Property} {m : GenericModel}
    (h : q ∈ (properties.foldl GenericModel.insert m).properties) :
    q ∈ m.properties ∨ ∃ p ∈ properties, q = { p with owner := some m.name } := by
  rw [properties_foldl_insert] at h
  refine (Keyed.mem_putAll h).imp_right fun hq => ?_
  obtain ⟨p, hp, rfl⟩ := List.mem_map.1 hq
  exact ⟨p, hp, rfl⟩

/-- Inserting properties into an empty model stores no other references than theirs. -/
theorem references_foldl_insert (properties : List Property) (name : String) :
    referencesOfProperties (properties.foldl GenericModel.insert (.empty name)).properties ⊆
      referencesOfProperties properties := by
  intro r hr
  obtain ⟨q, hq, hrq⟩ := mem_referencesOfProperties.1 hr
  rcases mem_foldl_insert hq with hq | ⟨p, hp, rfl⟩
  · exact absurd hq List.not_mem_nil
  · exact mem_referencesOfProperties.2 ⟨p, hp, hrq⟩

theorem readGeneric_records (name : String) (description : Option String) (m : Mapping) :
    Records known (readGeneric name description m) fun g => (Model.generic g).references := by
  unfold readGeneric
  refine .reading fun _ => .after (readTexts_silent m _) fun required => ?_
  refine (readProperties_records (fun _ _ => readSchemaTo_records _ _) _ _ m).bind fun ps => .pure ?_
  rw [Model.references_generic]
  exact List.subset_append_of_subset_right _ (references_foldl_insert ps name)

theorem readEnum_silent (name : String) (description : Option String) (m : Mapping) :
    Silent (readEnum name description m) := by
  unfold readEnum
  refine .reading fun found => .lift fun values => ?_
  refine .lift fun values => ?_
  split
  next => exact .throw
  next => exact .reading fun _ => .pure

/-- **Reading a named schema records the references in it.** -/
theorem readModel_records (name : String) (m : Mapping) :
    Records known (readModel name m) Model.references := by
  unfold readModel
  refine .reading fun _ => .reading fun description => ?_
  -- one reader for each kind of model, in the order in which the kinds are tried
  split
  next => exact (readGeneric_records name _ m).map
  split
  next =>
    refine Records.map (.silent (readEnum_silent name _ m) fun e => ?_)
    rw [Model.references_enumeration]
    exact List.nil_subset _
  split
  next => exact (readAllOf_records name _ m).map
  split
  next => exact (readOneOf_records name _ m).map
  refine .reading fun typeName => ?_
  split
  next =>
    refine (readArray_records (fun _ => readSchemaTo_records _ _) m).bind fun array => .pure ?_
    rw [Model.references_array]
    exact List.subset_append_right _ _
  next => exact .throw

/-- A named schema is stored only after its references were recorded. -/
theorem declareModel_records (name : String) (m : Mapping) :
    Records known (declareModel name m) fun _ => [] := by
  unfold declareModel
  refine (readModel_records name m).bind fun model => .report fun _ => .update ?_
  exact fun s t h => ⟨.model m.filename model, h, List.subset_append_right _ _⟩

theorem readModels_records (schemas : Mapping) : Records known (readModels schemas) fun _ => [] := by
  unfold readModels
  exact .reading fun entries => .forM fun entry _ => declareModel_records entry.1 entry.2

end OpenApi.Build
