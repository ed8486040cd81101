/-
  OpenApi.Proofs.Enums.Readers — enumerations are tagged as they are read.

  A reader of schemas is told what it reads for, and hands that on: items and values are read for the same owner, and
  each property for its own name. So the tags of an enumeration are those of the owner that the schema was read for, but
  for the innermost property. Main statements: `ModelRead.enumsTagged`, `OperationRead.enumsTagged`.
-/
import OpenApi.Proofs.Build.Additions
import OpenApi.Proofs.Enums.Sites

namespace OpenApi.Build

open Building (Gives)

/-! ## §1. Schemas. -/

theorem readEnumeration_tagged (owner : Owner) (m : Mapping) (values : Sequence) :
    (readEnumeration m owner values).Gives (Schema.Tagged owner) := by
  unfold readEnumeration
  refine .after fun texts => .after fun typeName => ?_
  split
  next => exact .throw
  next => exact .pure (.of_enums_nil rfl)
  next => exact .after fun description => .pure (.enumeration rfl rfl)

section

variable {build : Mapping → Building Schema} {owner : Owner}

theorem readMapValues_tagged (hbuild : ∀ m, (build m).Gives (Schema.Tagged owner)) (m : Mapping) :
    (readMapValues build m).Gives fun found => ∀ values, found = some values → values.Tagged owner := by
  have hfree : freeForm.Tagged owner := .of_enums_nil rfl
  unfold readMapValues
  split
  next =>
    refine .after fun found => .after fun values => ?_
    split
    next => exact .pure fun _ heq => Option.some.inj heq ▸ hfree
    next => exact .map ((hbuild values).imp fun c hc _ heq => Option.some.inj heq ▸ hc)
  next => exact .pure fun _ => nofun
  next => exact .pure fun _ => nofun
  next =>
    refine .after fun allowed => .pure fun values heq => ?_
    split at heq
    next => exact Option.some.inj heq ▸ hfree
    next => exact absurd heq nofun

theorem readArray_tagged (hbuild : ∀ m, (build m).Gives (Schema.Tagged owner)) (m : Mapping) :
    (readArray build m).Gives fun a => a.items.Tagged owner := by
  unfold readArray
  refine .after fun found => .after fun node => (hbuild node).bind fun items hitems => ?_
  exact .after fun _ => .after fun _ => .after fun _ => .pure hitems

theorem readProperty_tagged (hbuild : ∀ m, (build m).Gives (Schema.Tagged owner)) (declaring : Owner) (name : String)
    (required : Bool) (m : Mapping) :
    (readProperty build declaring name required m).Gives fun p => p.name = name ∧ p.schema.Tagged owner := by
  unfold readProperty
  refine .after fun _ => .after fun _ => .after fun _ => .after fun _ => .after fun _ => ?_
  exact (hbuild m).bind fun schema hschema => .pure ⟨rfl, hschema⟩

end

/-- The properties are tagged with their names. -/
def PropertiesTagged (owner : Owner) (properties : List Property) : Prop :=
  ∀ p ∈ properties, p.schema.Tagged (owner.at p.name)

section

variable {build : Owner → Mapping → Building Schema} (hbuild : ∀ owner m, (build owner m).Gives (Schema.Tagged owner))

include hbuild

theorem readProperties_tagged (owner : Owner) (required : List String) (m : Mapping) :
    (readProperties build owner required m).Gives (PropertiesTagged owner) := by
  unfold readProperties
  refine .after fun found => ?_
  split
  next => exact .pure fun p hp => absurd hp List.not_mem_nil
  next =>
    refine .after fun entries => .mapM fun e => ?_
    refine (readProperty_tagged (hbuild (owner.at e.1)) owner e.1 _ e.2).imp fun p hp => ?_
    obtain ⟨hname, hschema⟩ := hp
    rwa [hname]

theorem readObject_tagged (owner : Owner) (m : Mapping) :
    (readObject build owner m).Gives fun properties => (Schema.object properties).Tagged owner := by
  unfold readObject
  refine .after fun required => (readProperties_tagged hbuild owner required m).bind fun properties hproperties => ?_
  refine .pure (.object (Keyed.nodup_putAll_nil properties) fun p hp => ?_)
  rcases Keyed.mem_putAll (hp : p ∈ Keyed.putAll Property.name [] properties) with hp | hp
  · exact absurd hp List.not_mem_nil
  · exact hproperties p hp

end

/-- **The enumerations of a schema that is read for an owner are tagged with it.** -/
theorem readSchemaTo_tagged {height : Nat} : ∀ owner m, (readSchemaTo height owner m).Gives (Schema.Tagged owner) := by
  induction height with
  | zero => exact fun owner m => .throw
  | succ height ih =>
    -- The kinds of schemas in the order in which they are tried; what is read below is read for the same owner, but for
    -- properties.
    intro owner m
    unfold readSchemaTo
    dsimp only
    split
    next => exact .map fun _ _ _ _ => .of_enums_nil rfl
    split
    next => exact .throw
    refine .after fun _ => .after fun found => ?_
    split
    next values _ => exact readEnumeration_tagged owner m values
    split
    next => exact .after fun _ => .map (readObject_tagged ih owner m)
    refine (readMapValues_tagged (ih owner) m).bind fun values hvalues => ?_
    split
    next c => exact .after fun _ => .pure (.record (hvalues c rfl))
    refine .after fun _ => .after fun typeName => ?_
    split
    next => exact .map ((readArray_tagged (ih owner) m).imp fun a ha => .array ha)
    next => exact .after fun _ => .pure (.of_enums_nil rfl)

theorem readSchema_tagged (owner : Owner) (m : Mapping) : (readSchema owner m).Gives (Schema.Tagged owner) :=
  readSchemaTo_tagged owner m

/-! ## §2. Models. -/

/-- Properties that are inserted into a model are tagged as before, since a property does not pass its owner on. -/
theorem enumsTagged_foldl_insert {name : String} {properties : List Property}
    (h : PropertiesTagged (.ofModel name) properties) (description : Option String) :
    (Model.generic { properties.foldl GenericModel.insert (.empty name) with description }).EnumsTagged := by
  have hname : (properties.foldl GenericModel.insert (.empty name)).name = name := name_foldl_insert (.empty name)
  intro c hc
  rw [List.mem_singleton.1 hc]
  show (Schema.object (properties.foldl GenericModel.insert (.empty name)).properties).Tagged
    (.ofModel (properties.foldl GenericModel.insert (.empty name)).name)
  have hdistinct : ((properties.foldl GenericModel.insert (.empty name)).properties.map Property.name).Nodup := by
    rw [properties_foldl_insert]
    exact Keyed.nodup_putAll_nil _
  rw [hname]
  refine .object hdistinct fun p hp => ?_
  rcases mem_foldl_insert hp with hp | ⟨q, hq, rfl⟩
  · exact absurd hp List.not_mem_nil
  · exact h q hq

theorem readMember_tagged (a : AllOfModel) (m : Mapping) (ha : (Model.allOf a).EnumsTagged) :
    (readMember a m).Gives fun a => (Model.allOf a).EnumsTagged := by
  -- Only the second kind of member, an object in place, adds a schema.
  unfold readMember
  split
  next => exact .after fun r => .pure ha
  split
  next =>
    refine .after fun _ => (readObject_tagged readSchemaTo_tagged _ m).bind fun object hobject => ?_
    refine .after fun required => .pure fun c hc => ?_
    have hmembers : c ∈ a.inlineSupers.map Schema.object ++ [Schema.object object] := by
      simpa [Model.members] using hc
    rcases List.mem_append.1 hmembers with hc | hc
    · exact ha c hc
    · rw [List.mem_singleton.1 hc]
      exact hobject
  split
  next => exact .after fun _ => .after fun required => .pure ha
  split
  next => exact .after fun _ => .after fun _ => .pure ha
  next => exact .throw

/-- Making properties required leaves their schemas as they are. -/
theorem enumsTagged_markRequired {a : AllOfModel} (ha : (Model.allOf a).EnumsTagged) :
    (Model.allOf (markRequired a)).EnumsTagged := by
  intro c hc
  obtain ⟨object, hobject, rfl⟩ := List.mem_map.1 hc
  obtain ⟨declared, hdeclared, rfl⟩ := List.mem_map.1 hobject
  have htagged := ha (.object declared) (List.mem_map_of_mem hdeclared)
  have henums : (Schema.object (declared.map fun p =>
      { p with required := p.required || a.required.contains p.name })).enums = (Schema.object declared).enums := by
    rw [Schema.enums, Schema.enums, enumsOfProperties_eq, enumsOfProperties_eq, List.flatMap_map]
  refine ⟨fun path e he => htagged.tags path e (henums ▸ he), fun path e f he hf => ?_⟩
  exact htagged.unique path e f (henums ▸ he) (henums ▸ hf)

theorem readAllOf_tagged (name : String) (description : Option String) (m : Mapping) :
    (readAllOf name description m).Gives fun a => (Model.allOf a).EnumsTagged := by
  have hnone : ∀ required, (Model.allOf ⟨name, description, required, [], []⟩).EnumsTagged :=
    fun _ c hc => absurd hc List.not_mem_nil
  unfold readAllOf
  refine .after fun _ => .after fun required => .after fun found => .after fun members => .after fun members => ?_
  refine Gives.bind (Gives.foldlM (fun a m ha => readMember_tagged a m ha) _ (hnone required)) fun a ha => ?_
  exact .pure (enumsTagged_markRequired ha)

theorem readModel_tagged (name : String) (m : Mapping) : (readModel name m).Gives Model.EnumsTagged := by
  -- kinds of models with no members have nothing to tag
  have hnone : ∀ {model : Model}, model.members = [] → model.EnumsTagged := by
    intro model hempty c hc
    rw [hempty] at hc
    exact absurd hc List.not_mem_nil
  unfold readModel
  refine .after fun _ => .after fun description => ?_
  split
  next =>
    refine .map ?_
    unfold readGeneric
    refine .after fun _ => .after fun required => ?_
    exact (readProperties_tagged readSchemaTo_tagged _ required m).bind fun properties hproperties =>
      .pure (enumsTagged_foldl_insert hproperties _)
  split
  next => exact .map fun _ _ _ _ => hnone rfl
  split
  next => exact .map (readAllOf_tagged name _ m)
  split
  next => exact .map fun _ _ _ _ => hnone rfl
  refine .after fun typeName => ?_
  split
  next =>
    refine (readArray_tagged (readSchemaTo_tagged (.ofModel name)) m).bind fun a ha => .pure fun c hc => ?_
    rw [List.mem_singleton.1 hc]
    exact ha
  next => exact .throw

/-- **The enumerations of a model that is read bear its tag.** -/
theorem ModelRead.enumsTagged {m : Model} (h : ModelRead m) : m.EnumsTagged := by
  cases h with
  | named hrun => exact readModel_tagged _ _ _ _ _ hrun
  | promoted hrun description =>
    have hobject := readSchema_tagged _ _ _ _ _ hrun
    exact enumsTagged_foldl_insert (fun p hp => hobject.property hp) description

/-! ## §3. Operations. -/

theorem readParameter_tagged (typeName : Option String) (m : Mapping) :
    (readParameter typeName m).Gives fun p => p.schema.Tagged ⟨typeName, some p.name⟩ := by
  unfold readParameter
  split
  next => exact .throw
  split
  next => exact .throw
  refine .after fun _ => .after fun _ => .after fun name => .after fun _ => .after fun location => ?_
  refine .after fun _ => .after fun node => (readSchema_tagged ⟨typeName, some name⟩ node).bind fun schema hschema => ?_
  exact .after fun _ => .after fun _ => .after fun _ => .after fun _ => .pure hschema

theorem readParameters_tagged (typeName : Option String) (m : Mapping) :
    (readParameters typeName m).Gives fun ps => ∀ p ∈ ps, p.schema.Tagged ⟨typeName, some p.name⟩ := by
  unfold readParameters
  refine .after fun found => ?_
  split
  next => exact .pure fun p hp => absurd hp List.not_mem_nil
  next => exact .after fun mappings => .mapM fun m => readParameter_tagged typeName m

/-- The schemas of contents bear the tag of a model, and their types are distinct. -/
def ContentsTagged (modelName : String) (contents : Contents) : Prop :=
  (contents.map Prod.fst).Nodup ∧ ∀ c ∈ contents, c.2.schema.Tagged (.ofModel modelName)

theorem contentsTagged_nil (modelName : String) : ContentsTagged modelName [] :=
  ⟨List.nodup_nil, fun _ hc => absurd hc List.not_mem_nil⟩

theorem readContent_tagged (required : Bool) (modelName declaredType : String) (media : Mapping) :
    (readContent required modelName declaredType media).Gives fun found =>
      ∀ c, found = some c → c.schema.Tagged (.ofModel modelName) := by
  unfold readContent
  refine .after fun _ => .after fun found => ?_
  split
  next => exact .after fun _ => .pure fun _ => nofun
  next m _ =>
    refine (readSchema_tagged (.ofModel modelName) m).bind fun schema hschema => ?_
    dsimp only
    split
    next =>
      split
      next => exact .pure fun c hc => Option.some.inj hc ▸ hschema
      -- The object becomes a model, and the content holds a reference instead.
      next => exact .after fun r => .pure fun c hc => Option.some.inj hc ▸ .of_enums_nil rfl
    next => exact .pure fun c hc => Option.some.inj hc ▸ hschema

theorem readContents_tagged (required : Bool) (modelName : String) (content : Mapping) :
    (readContents required modelName content).Gives (ContentsTagged modelName) := by
  unfold readContents
  refine .after fun entries => (Gives.mapM fun e => readContent_tagged _ _ _ _).bind fun found hfound => ?_
  refine .pure ⟨Keyed.nodup_putAll_nil _, fun e he => ?_⟩
  rcases Keyed.mem_putAll he with he | he
  · exact absurd he List.not_mem_nil
  · obtain ⟨c, hc, rfl⟩ := List.mem_map.1 he
    obtain ⟨o, ho, rfl⟩ := List.mem_filterMap.1 hc
    exact hfound _ ho c rfl

theorem readRequestBody_tagged (typeName : String) (body : Mapping) :
    (readRequestBody typeName body).Gives (ContentsTagged (typeName ++ "Request")) := by
  unfold readRequestBody
  split
  next => exact .throw
  next => exact .after fun _ => .after fun _ => .after fun _ => .after fun _ => readContents_tagged _ _ _

theorem readResponse_tagged (typeName : String) (responses : Mapping) (key : String) (m : Mapping) :
    (readResponse typeName responses key m).Gives fun r =>
      ContentsTagged (typeName ++ Text.pascalCase r.status.text ++ "Response") r.contents := by
  unfold readResponse
  split
  next => exact .throw
  split
  next => exact .throw
  next =>
    refine .after fun _ => .after fun _ => Gives.bind
      (.optionally (contentsTagged_nil _) (readContents_tagged _ _) _) fun contents hcontents => ?_
    exact .after fun _ => .pure hcontents

theorem readResponses_tagged (typeName : String) (responses : Mapping) :
    (readResponses typeName responses).Gives fun rs => ∀ r ∈ rs,
      ContentsTagged (typeName ++ Text.pascalCase r.status.text ++ "Response") r.contents := by
  unfold readResponses
  exact .after fun entries => .mapM fun e => readResponse_tagged _ _ _ _

theorem readOperation_tagged (defaults : Defaults) (path : String) {common : List Parameter} (method : HttpMethod)
    (m : Mapping) (hcommon : ∀ p ∈ common, p.schema.Tagged ⟨none, some p.name⟩) :
    (readOperation defaults path common method m).Gives Operation.EnumsTagged := by
  unfold readOperation
  refine .after fun _ => .after fun _ => .after fun _ => .after fun _ => .after fun tags => ?_
  refine (readParameters_tagged _ m).bind fun own hown => .after fun _ => ?_
  refine Gives.bind (.optionally (contentsTagged_nil _) (readRequestBody_tagged _) _) fun bodies hbodies => ?_
  refine .after fun _ => Gives.bind
    (.optionally (fun r hr => absurd hr List.not_mem_nil) (readResponses_tagged _) _) fun responses hresponses => ?_
  refine .after fun _ => .after fun security => .pure ⟨⟨common, hcommon, ?_, ?_⟩, ?_⟩
  · -- A parameter that is not one of the path item is one of the operation itself.
    intro p hp hnew
    exact hown p ((Keyed.mem_putAll hp).resolve_left hnew)
  · exact fun p hp q hq hnewp hnewq h => Keyed.eq_of_mem_putAll hp hq hnewp hnewq h
  · refine List.forall_mem_cons.2 ⟨hbodies, fun b hb => ?_⟩
    obtain ⟨r, hr, rfl⟩ := List.mem_map.1 hb
    exact hresponses r hr

/-- **The enumerations of an operation that is read bear its tags.** -/
theorem OperationRead.enumsTagged {o : Operation} (h : OperationRead o) : o.EnumsTagged := by
  obtain ⟨defaults, path, item, common, method, m, session, after, hcommon, hrun⟩ := h
  have hshared := (readParameters_tagged none item).of_outcome hcommon
  exact readOperation_tagged defaults path method m hshared session o after hrun

end OpenApi.Build
