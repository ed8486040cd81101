/-
  OpenApi.Proofs.Build.OperationReaders — reading operations records the references in them.

  An object that is declared in place of a body is stored as a model, and a reference to that model, which is
  recorded, stands in the body.
-/
import OpenApi.Build.Operations
import OpenApi.Proofs.Build.ModelReaders

namespace OpenApi.Build

open Building (Records Silent)

variable {known : List SchemaRef}

/-! ## §1. Contents. -/

theorem nameObject_records {properties : List Property}
    (hproperties : referencesOfProperties properties ⊆ known) (name contentType : String) (m : Mapping) :
    Records known (nameObject properties name contentType m) fun r => [r] := by
  -- the model takes over the references of the object, which were recorded when the object was read
  have hmodel : ∀ description, (Model.generic { properties.foldl GenericModel.insert (.empty name) with
      description }).references ⊆ known := by
    intro description
    rw [Model.references_generic]
    exact List.Subset.trans (references_foldl_insert properties name) hproperties
  have hrecord : Records known (do
      Building.addReference (SchemaRef.toModel m.filename name)
      pure (SchemaRef.toModel m.filename name)) fun r => [r] :=
    (Records.addReference _).bind fun _ => .pure (List.subset_append_right _ _)
  unfold nameObject
  refine .spec fun s => ?_
  split
  next =>
    split
    next => exact hrecord
    next => exact .after .throw fun _ => hrecord
  next => exact .after .throw fun _ => hrecord
  next =>
    refine .reading fun description => .report fun _ => ?_
    refine Records.bind (.update fun s t h => ⟨.model m.filename _, h, hmodel _⟩) fun _ => ?_
    exact hrecord.known_mono (List.subset_append_left _ _)

theorem readContent_records (required : Bool) (modelName declaredType : String) (media : Mapping) :
    Records known (readContent required modelName declaredType media)
      fun content => content.elim [] fun c => c.schema.references := by
  unfold readContent
  refine .reading fun _ => .reading fun found => ?_
  split
  next => exact .report fun _ => .pure (List.nil_subset _)
  next m _ =>
    refine (readSchema_records _ m).bind fun schema => ?_
    dsimp only
    split
    next properties =>
      split
      next => exact .pure (List.subset_append_right _ _)
      next =>
        -- a named object leaves only the reference to its model, but the model must find the others recorded
        have hproperties : referencesOfProperties properties ⊆
            known ++ (Schema.object properties).references := by
          rw [Schema.references_object]
          exact List.subset_append_right _ _
        refine (nameObject_records hproperties _ _ m).bind fun r => .pure ?_
        rw [Option.elim_some, Schema.references_ref]
        exact List.subset_append_right _ _
    next => exact .pure (List.subset_append_right _ _)

theorem readContents_records (required : Bool) (modelName : String) (content : Mapping) :
    Records known (readContents required modelName content) Contents.references := by
  unfold readContents
  refine .reading fun entries => ?_
  refine (Records.mapM fun entry _ => readContent_records required modelName _ _).bind fun contents =>
    .pure ?_
  intro r hr
  obtain ⟨entry, hentry, hr⟩ := List.mem_flatMap.1 hr
  rcases Keyed.mem_putAll hentry with hentry | hentry
  · exact absurd hentry List.not_mem_nil
  · obtain ⟨c, hc, rfl⟩ := List.mem_map.1 hentry
    obtain ⟨found, hfound, rfl⟩ := List.mem_filterMap.1 hc
    exact List.mem_append_right _ (List.mem_flatMap.2 ⟨_, hfound, hr⟩)

theorem readRequestBody_records (typeName : String) (body : Mapping) :
    Records known (readRequestBody typeName body) Contents.references := by
  unfold readRequestBody
  split
  next => exact .throw
  next =>
    refine .reading fun _ => .reading fun required => .reading fun found => .lift fun content => ?_
    exact readContents_records _ _ content

theorem readResponse_records (typeName : String) (responses : Mapping) (key : String) (m : Mapping) :
    Records known (readResponse typeName responses key m)
      fun response => Contents.references response.contents := by
  unfold readResponse
  split
  next => exact .throw
  split
  next => exact .throw
  next =>
    refine .reading fun _ => .reading fun found => ?_
    refine (Records.optionally (readContents_records _ _) (List.nil_subset _) _).bind fun contents => ?_
    exact .reading fun _ => .pure (List.subset_append_right _ _)

theorem readResponses_records (typeName : String) (responses : Mapping) :
    Records known (readResponses typeName responses)
      fun rs => rs.flatMap fun response => Contents.references response.contents := by
  unfold readResponses
  exact .reading fun entries => .mapM fun entry _ => readResponse_records typeName responses _ _

/-! ## §2. Security. -/

theorem readEntry_silent (m : Mapping) : Silent (readEntry m) :=
  .mapM fun _ _ => .reading fun _ => .lift fun _ => .lift fun _ => .pure

theorem readRequirements_silent (security : Sequence) : Silent (readRequirements security) := by
  unfold readRequirements
  refine .lift fun mappings => ?_
  exact (Silent.mapM fun m _ => readEntry_silent m).bind fun _ => .pure

theorem readScheme_silent (key : String) (m : Mapping) : Silent (readScheme key m) := by
  unfold readScheme
  refine .reading fun _ => .reading fun found => ?_
  refine .lift fun schemeType => .reading fun _ => ?_
  exact .reading fun _ => .reading fun _ => .reading fun _ => .pure

theorem readSchemes_records (schemes : Mapping) : Records known (readSchemes schemes) fun _ => [] := by
  unfold readSchemes
  refine .reading fun entries => .forM fun entry _ => ?_
  unfold declareScheme
  refine .after (readScheme_silent _ _) fun scheme => .report fun _ => .update ?_
  exact fun s t h => ⟨.securityScheme scheme, h, List.nil_subset _⟩

/-! ## §3. Operations. -/

theorem readParameter_records (typeName : Option String) (m : Mapping) :
    Records known (readParameter typeName m) fun p => p.schema.references := by
  unfold readParameter
  split
  next => exact .throw
  split
  next => exact .throw
  next =>
    refine .reading fun _ => .reading fun found => .lift fun name => ?_
    refine .reading fun found => .lift fun location => .reading fun found => .lift fun node => ?_
    refine (readSchema_records _ node).bind fun schema => ?_
    refine .reading fun _ => .reading fun _ => .reading fun _ => .reading fun _ => .pure ?_
    exact List.subset_append_right _ _

theorem readParameters_records (typeName : Option String) (m : Mapping) :
    Records known (readParameters typeName m) fun ps => ps.flatMap fun p => p.schema.references := by
  unfold readParameters
  refine .reading fun found => ?_
  split
  next => exact .pure (List.nil_subset _)
  next parameters _ => exact .lift fun mappings => .mapM fun p _ => readParameter_records typeName p

theorem readTags_silent (defaultTag : String) (m : Mapping) : Silent (readTags defaultTag m) := by
  unfold readTags
  refine (readTexts_silent m _).bind fun tags => ?_
  split
  next => exact .pure
  next =>
    refine .foldlM (fun tags tag _ => ?_) []
    unfold addTag
    split
    next => exact .report fun _ => .pure
    next => exact .pure

/-- Putting parameters of an operation over those of its path stores no other references than theirs. -/
theorem references_putAll_parameters (common own : List Parameter) :
    ((Keyed.putAll parameterKey common own).flatMap fun p => p.schema.references) ⊆
      (common.flatMap fun p => p.schema.references) ++ own.flatMap fun p => p.schema.references := by
  rw [← List.flatMap_append]
  intro r hr
  obtain ⟨p, hp, hr⟩ := List.mem_flatMap.1 hr
  exact List.mem_flatMap.2 ⟨p, List.mem_append.2 (Keyed.mem_putAll hp), hr⟩

/-- **Reading an operation records the references in it, where those of common parameters are known.** -/
theorem readOperation_records (defaults : Defaults) (path : String) {common : List Parameter}
    (hcommon : (common.flatMap fun p => p.schema.references) ⊆ known) (method : HttpMethod) (m : Mapping) :
    Records known (readOperation defaults path common method m) Operation.references := by
  unfold readOperation
  refine .reading fun _ => .reading fun id => .reading fun _ => .reading fun _ => ?_
  refine .after (readTags_silent _ m) fun tags => ?_
  refine (readParameters_records _ m).bind fun own => .reading fun body => ?_
  refine (Records.optionally (readRequestBody_records _) (List.nil_subset _) _).bind fun bodies => ?_
  refine .reading fun found => ?_
  refine (Records.optionally (readResponses_records _) (List.nil_subset _) _).bind fun responses => ?_
  refine .reading fun requirements => ?_
  refine .after (Silent.optionally readRequirements_silent _) fun security => .pure ?_
  -- parameters that override others leave no reference behind that neither list has
  have hparameters : ((Keyed.putAll parameterKey common own).flatMap fun p => p.schema.references) ⊆
      known ++ own.flatMap fun p => p.schema.references :=
    List.Subset.trans (references_putAll_parameters common own)
      (List.append_subset.2 ⟨List.subset_append_of_subset_left _ hcommon, List.subset_append_right _ _⟩)
  have hbodies := List.subset_append_right (known ++ own.flatMap fun p => p.schema.references)
    (Contents.references bodies)
  rw [Operation.references_eq]
  refine List.append_subset.2 ⟨List.subset_append_of_subset_left _ ?_, List.subset_append_right _ _⟩
  exact List.append_subset.2 ⟨List.subset_append_of_subset_left _ hparameters, hbodies⟩

/-! ## §4. Paths. -/

/-- An operation is stored only after its references were recorded. -/
theorem readMethod_records (defaults : Defaults) (path : String) {common : List Parameter}
    (hcommon : (common.flatMap fun p => p.schema.references) ⊆ known) (item : Mapping) (key : String) :
    Records known (readMethod defaults path common item key) fun _ => [] := by
  unfold readMethod
  split
  next => exact .throw
  next method _ =>
    refine .reading fun found => .lift fun m => ?_
    refine (readOperation_records defaults path hcommon method m).bind fun operation => ?_
    refine .report fun _ => .update ?_
    exact fun s t h => ⟨.operation operation, h, List.subset_append_right _ _⟩

theorem readItem_records (defaults : Defaults) (path : String) (item : Mapping) :
    Records known (readItem defaults path item) fun _ => [] := by
  unfold readItem
  refine .reading fun _ => (readParameters_records none item).bind fun common => ?_
  exact .forM fun key _ => readMethod_records defaults path (List.subset_append_right _ _) item key

theorem readPaths_records (defaults : Defaults) (paths : Mapping) :
    Records known (readPaths defaults paths) fun _ => [] := by
  unfold readPaths
  exact .reading fun entries => .forM fun entry _ => readItem_records defaults entry.1 entry.2

end OpenApi.Build
