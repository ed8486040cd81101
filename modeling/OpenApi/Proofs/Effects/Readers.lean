/-
  OpenApi.Proofs.Effects.Readers — what reading a document does depends on the tables of the spec only.

  Schemas and named schemas are read without a look at the spec, so reading them has one effect, whatever was read
  before. Where a model or operation is added, the names that are taken count as well, and an object that is
  declared in place is compared with the model that has its name. Main statements: `readModel_steady`,
  `readEntryDocument_steady`, `readForeignDocument_steady`.
-/
import OpenApi.Build.Entry
import OpenApi.Proofs.Effects.Steady

namespace OpenApi

/-! ## §1. Specs with the same tables. -/

namespace Spec

variable {s t s' t' : Spec} {name id : String}

/-- Both specs have tables in step, are described alike, and know the same models by their names and the same
operations by their identifiers. -/
structure SameTables (s t : Spec) : Prop where
  left : s.InStep
  right : t.InStep
  info : s.info = t.info
  servers : s.servers = t.servers
  modelNamed : ∀ name, s.modelNamed? name = t.modelNamed? name
  operation : ∀ id, s.operation? id = t.operation? id

theorem InStep.sameTables_self (hs : s.InStep) : s.SameTables s := ⟨hs, hs, rfl, rfl, fun _ => rfl, fun _ => rfl⟩

/-- A name is taken if there is a model under it. -/
theorem InStep.declares_eq_isSome (hs : s.InStep) (name : String) :
    s.declares name = (s.modelNamed? name).isSome := by
  unfold declares modelNamed?
  cases hn : s.numberNamed? name with
  | none => rfl
  | some n =>
    obtain ⟨m, hm, -⟩ := hs.named name n hn
    rw [Option.bind_some, hm]
    rfl

theorem SameTables.declares (h : s.SameTables t) (name : String) : s.declares name = t.declares name := by
  rw [h.left.declares_eq_isSome, h.right.declares_eq_isSome, h.modelNamed]

theorem operation?_of_addOperation {o : Operation} (h : s.addOperation o = .ok s') :
    s'.operation? id = (s.operation? id).or (if o.operationId = id then some o else none) := by
  rw [addOperation_ok h]
  unfold operation? Keyed.find?
  rw [List.find?_append]
  by_cases hid : o.operationId = id
  · simp [hid]
  · simp [hid]

theorem modelNamed?_of_addOperation {o : Operation} (h : s.addOperation o = .ok s') :
    s'.modelNamed? name = s.modelNamed? name := by
  rw [addOperation_ok h]
  rfl

theorem operation?_of_addModel {file : String} {m : Model} (h : s.addModel file m = .ok s') :
    s'.operation? id = s.operation? id := by
  rw [(addModel_ok h).2]
  rfl

/-- Specs with the same tables have the same tables after the same change. -/
theorem SameTables.apply {c : Change} (h : s.SameTables t) (hs : s.apply c = .ok s') (ht : t.apply c = .ok t') :
    s'.SameTables t' := by
  have hleft : s'.InStep := h.left.apply hs
  have hright : t'.InStep := h.right.apply ht
  -- each change touches one table, and the lookups in the others are those of before
  cases c with
  | model file m =>
    refine ⟨hleft, hright, ?_, ?_, fun name => ?_, fun id => ?_⟩
    · rw [(addModel_ok hs).2, (addModel_ok ht).2]
      exact h.info
    · rw [(addModel_ok hs).2, (addModel_ok ht).2]
      exact h.servers
    · rw [(addModel_ok hs).2, (addModel_ok ht).2, h.left.modelNamed?_withModel, h.right.modelNamed?_withModel,
        h.modelNamed]
    · rw [operation?_of_addModel hs, operation?_of_addModel ht, h.operation]
  | operation o =>
    refine ⟨hleft, hright, ?_, ?_, fun name => ?_, fun id => ?_⟩
    · rw [addOperation_ok hs, addOperation_ok ht]
      exact h.info
    · rw [addOperation_ok hs, addOperation_ok ht]
      exact h.servers
    · rw [modelNamed?_of_addOperation hs, modelNamed?_of_addOperation ht, h.modelNamed]
    · rw [operation?_of_addOperation hs, operation?_of_addOperation ht, h.operation]
  | describe =>
    obtain rfl := Except.ok.inj hs
    obtain rfl := Except.ok.inj ht
    exact ⟨hleft, hright, rfl, rfl, h.modelNamed, h.operation⟩
  | reference | securityScheme =>
    obtain rfl := Except.ok.inj hs
    obtain rfl := Except.ok.inj ht
    exact ⟨hleft, hright, h.info, h.servers, h.modelNamed, h.operation⟩

end Spec

/-- Specs agree if they have the same tables, and any change may be made. -/
def Agreement.tables : Agreement where
  holds := Spec.SameTables
  allows _ := True
  reference _ := trivial
  apply := .apply

namespace Building

open Agreement (tables)

/-- A model is added, or refused, by specs with the same tables alike. -/
theorem Steady.addModel (file : String) (m : Model) :
    (Building.update fun spec => spec.addModel file m).Steady tables := by
  refine .update fun s => ?_
  cases hdeclares : s.declares m.name with
  | true =>
    refine .inl ⟨⟨.duplicateModel m.name, none⟩, fun t h => ?_⟩
    exact Spec.addModel_of_taken ((Spec.SameTables.declares h m.name).symm.trans hdeclares) file
  | false =>
    refine .inr ⟨.model file m, trivial, fun t h => ⟨t.withModel file m, ?_⟩⟩
    have hadd : t.addModel file m = .ok (t.withModel file m) :=
      Spec.addModel_of_free ((Spec.SameTables.declares h m.name).symm.trans hdeclares) file
    exact ⟨hadd, hadd⟩

theorem Steady.addOperation (o : Operation) :
    (Building.update fun spec => spec.addOperation o).Steady tables := by
  refine .update fun s => ?_
  cases htaken : (s.operation? o.operationId).isSome with
  | true =>
    refine .inl ⟨⟨.duplicateOperation o.operationId, none⟩, fun t h => ?_⟩
    unfold Spec.addOperation
    rw [← Spec.SameTables.operation h, htaken]
    rfl
  | false =>
    refine .inr ⟨.operation o, trivial, fun t h => ?_⟩
    have hadd : t.addOperation o = .ok { t with
        operations := t.operations ++ [o]
        apis := o.tags.foldl (fun apis tag => Spec.groupUnder o.operationId tag apis) t.apis } := by
      unfold Spec.addOperation
      rw [← Spec.SameTables.operation h, htaken]
      rfl
    exact ⟨_, hadd, hadd⟩

end Building

namespace Build

open Building (Steady)
open Agreement (tables)

variable {K : Agreement}

/-! ## §2. Schemas. -/

theorem readReference_steady (m : Mapping) : (readReference m).Steady K := by
  unfold readReference
  refine .lookup fun found => .lift fun raw => ?_
  split
  next => exact .throw
  next => exact .throw
  next r _ =>
    exact .reading .ignore fun _ => (Steady.addReference r).bind fun _ => .pure

theorem readTexts_steady (m : Mapping) (key : String) : (readTexts m key).Steady K := by
  unfold readTexts
  refine .lookup fun found => ?_
  split
  next => exact .of_lift _
  next => exact .pure

theorem readEnumeration_steady (m : Mapping) (owner : Owner) (values : Sequence) :
    (readEnumeration m owner values).Steady K := by
  unfold readEnumeration
  refine .lift fun texts => .lookup fun typeName => ?_
  split
  next => exact .throw
  next => exact .pure
  next => exact .lookup fun _ => .pure

section

variable {build : Mapping → Building Schema}

theorem readMapValues_steady (hbuild : ∀ m, (build m).Steady K) (m : Mapping) :
    (readMapValues build m).Steady K := by
  unfold readMapValues
  split
  next =>
    refine .lookup fun found => .lift fun values => ?_
    split
    next => exact .pure
    next => exact (hbuild values).map
  next => exact .pure
  next => exact .pure
  next => exact .lookup fun _ => .pure

theorem readArray_steady (hbuild : ∀ m, (build m).Steady K) (m : Mapping) : (readArray build m).Steady K := by
  unfold readArray
  refine .lookup fun found => .lift fun node => (hbuild node).bind fun items => ?_
  exact .lookup fun _ => .lookup fun _ => .lookup fun _ => .pure

theorem readProperty_steady (hbuild : ∀ m, (build m).Steady K) (owner : Owner) (name : String)
    (required : Bool) (m : Mapping) : (readProperty build owner name required m).Steady K := by
  unfold readProperty
  refine .lookup fun _ => .reading .value fun _ => .lookup fun _ => .lookup fun _ => .lookup fun _ => ?_
  exact (hbuild m).bind fun schema => .pure

end

section

variable {build : Owner → Mapping → Building Schema}

theorem readProperties_steady (hbuild : ∀ owner m, (build owner m).Steady K) (owner : Owner)
    (required : List String) (m : Mapping) : (readProperties build owner required m).Steady K := by
  unfold readProperties
  refine .lookup fun found => ?_
  split
  next => exact .pure
  next properties _ =>
    exact .reading .mappingEntries fun entries => .mapM fun entry _ => readProperty_steady (hbuild _) owner _ _ _

theorem readObject_steady (hbuild : ∀ owner m, (build owner m).Steady K) (owner : Owner) (m : Mapping) :
    (readObject build owner m).Steady K := by
  unfold readObject
  refine (readTexts_steady m _).bind fun required => ?_
  exact (readProperties_steady hbuild owner required m).bind fun ps => .pure

end

theorem readSchemaTo_steady {height : Nat} : ∀ owner m, (readSchemaTo height owner m).Steady K := by
  induction height with
  | zero => exact fun owner m => .throw
  | succ height ih =>
    intro owner m
    unfold readSchemaTo
    dsimp only
    -- the branches in the order of the reader: reference, array form, enumeration, object, map, declared type
    split
    next => exact (readReference_steady m).map
    split
    next => exact .throw
    refine .reading .ignore fun _ => .lookup fun values => ?_
    split
    next values _ => exact readEnumeration_steady m owner values
    split
    next => exact .reading .ignore fun _ => (readObject_steady ih owner m).map
    refine (readMapValues_steady (ih owner) m).bind fun values => ?_
    split
    next values => exact .reading .ignore fun _ => .pure
    refine .lookup fun found => .lift fun typeName => ?_
    split
    next => exact (readArray_steady (ih owner) m).map
    next => exact .lookup fun _ => .pure

/-! ## §3. Named schemas. -/

theorem readMember_steady (model : AllOfModel) (m : Mapping) : (readMember model m).Steady K := by
  unfold readMember
  split
  next => exact (readReference_steady m).bind fun r => .pure
  split
  next =>
    refine .reading .ignore fun _ => ?_
    refine (readObject_steady readSchemaTo_steady _ m).bind fun object => ?_
    exact (readTexts_steady m _).bind fun required => .pure
  split
  next => exact .reading .ignore fun _ => (readTexts_steady m _).bind fun required => .pure
  split
  next => exact .reading .ignore fun _ => .report rfl fun _ => .pure
  next => exact .throw

theorem readAllOf_steady (name : String) (description : Option String) (m : Mapping) :
    (readAllOf name description m).Steady K := by
  unfold readAllOf
  refine .reading .ignore fun _ => (readTexts_steady m _).bind fun required => ?_
  refine .lookup fun found => .lift fun members => .lift fun members => ?_
  exact (Steady.foldlM (fun model m _ => readMember_steady model m) _).bind fun model => .pure

theorem readTarget_steady (m : Mapping) (value : String) : (readTarget m value).Steady K := by
  unfold readTarget
  refine .lookup fun found => .lift fun raw => ?_
  split
  next => exact .throw
  next r _ => exact (Steady.addReference r).bind fun _ => .pure

theorem readDiscriminator_steady (m : Mapping) : (readDiscriminator m).Steady K := by
  unfold readDiscriminator
  refine .lookup fun propertyName => .lookup fun found => ?_
  split
  next => exact .pure
  next mapping _ => exact (Steady.mapM fun value _ => readTarget_steady mapping value).bind fun entries => .pure

theorem readOneOf_steady (name : String) (description : Option String) (m : Mapping) :
    (readOneOf name description m).Steady K := by
  unfold readOneOf
  refine .reading .ignore fun _ => .lookup fun found => .lift fun members => .lift fun members => ?_
  refine Steady.bind (.mapM fun member _ => ?_) fun members => .lookup fun found => ?_
  · split
    next => exact readReference_steady member
    next => exact .throw
  · split
    next => exact .pure
    next d _ => exact (readDiscriminator_steady d).bind fun discriminator => .pure

theorem readGeneric_steady (name : String) (description : Option String) (m : Mapping) :
    (readGeneric name description m).Steady K := by
  unfold readGeneric
  refine .reading .ignore fun _ => (readTexts_steady m _).bind fun required => ?_
  exact (readProperties_steady readSchemaTo_steady _ _ m).bind fun ps => .pure

theorem readEnum_steady (name : String) (description : Option String) (m : Mapping) :
    (readEnum name description m).Steady K := by
  unfold readEnum
  refine .lookup fun found => .lift fun values => .lift fun values => ?_
  split
  next => exact .throw
  next => exact .lookup fun _ => .pure

/-- **Reading a named schema has one effect**, whatever the spec holds. -/
theorem readModel_steady (name : String) (m : Mapping) : (readModel name m).Steady K := by
  unfold readModel
  refine .reading .ignore fun _ => .lookup fun description => ?_
  split
  next => exact (readGeneric_steady name _ m).map
  split
  next => exact (readEnum_steady name _ m).map
  split
  next => exact (readAllOf_steady name _ m).map
  split
  next => exact (readOneOf_steady name _ m).map
  refine .lookup fun typeName => ?_
  split
  next => exact (readArray_steady (fun _ => readSchemaTo_steady _ _) m).bind fun array => .pure
  next => exact .throw

theorem declareModel_steady (name : String) (m : Mapping) : (declareModel name m).Steady tables := by
  unfold declareModel
  exact (readModel_steady name m).bind fun model => .report rfl fun _ => .addModel m.filename model

theorem readModels_steady (schemas : Mapping) : (readModels schemas).Steady tables := by
  unfold readModels
  exact .reading .mappingEntries fun entries => .forM fun entry _ => declareModel_steady entry.1 entry.2

/-! ## §4. Contents. -/

theorem nameObject_steady (properties : List Property) (name contentType : String) (m : Mapping) :
    (nameObject properties name contentType m).Steady tables := by
  unfold nameObject
  have hrecord : Steady tables (do
      Building.addReference (SchemaRef.toModel m.filename name)
      pure (SchemaRef.toModel m.filename name)) :=
    (Steady.addReference _).bind fun _ => .pure
  refine .ask (fun s t h => ?_) fun s => ?_
  · -- the spec is asked for the model with this name only
    rw [Spec.SameTables.modelNamed h]
  · split
    next =>
      split
      next => exact hrecord
      next => exact Steady.throw.bind fun _ => hrecord
    next => exact Steady.throw.bind fun _ => hrecord
    next =>
      refine .lookup fun description => .report rfl fun _ => ?_
      exact (Steady.addModel _ _).bind fun _ => hrecord

theorem readContent_steady (required : Bool) (modelName declaredType : String) (media : Mapping) :
    (readContent required modelName declaredType media).Steady tables := by
  unfold readContent
  refine .reading .ignore fun _ => .lookup fun found => ?_
  split
  next => exact .report rfl fun _ => .pure
  next m _ =>
    refine Steady.bind (readSchemaTo_steady _ m) fun schema => ?_
    dsimp only
    split
    next properties =>
      split
      next => exact .pure
      next => exact (nameObject_steady properties modelName _ m).bind fun r => .pure
    next => exact .pure

theorem readContents_steady (required : Bool) (modelName : String) (content : Mapping) :
    (readContents required modelName content).Steady tables := by
  unfold readContents
  refine .reading .mappingEntries fun entries => ?_
  exact (Steady.mapM fun entry _ => readContent_steady required modelName _ _).bind fun contents => .pure

theorem readRequestBody_steady (typeName : String) (body : Mapping) :
    (readRequestBody typeName body).Steady tables := by
  unfold readRequestBody
  split
  next => exact .throw
  next =>
    refine .reading .ignore fun _ => .lookup fun required => .lookup fun found => .lift fun content => ?_
    exact readContents_steady _ _ content

theorem readResponse_steady (typeName : String) (responses : Mapping) (key : String) (m : Mapping) :
    (readResponse typeName responses key m).Steady tables := by
  unfold readResponse
  split
  next => exact .throw
  split
  next => exact .throw
  next =>
    refine .reading .ignore fun _ => .lookup fun found => ?_
    exact (Steady.optionally (readContents_steady _ _) _).bind fun contents => .lookup fun _ => .pure

theorem readResponses_steady (typeName : String) (responses : Mapping) :
    (readResponses typeName responses).Steady tables := by
  unfold readResponses
  exact .reading .mappingEntries fun entries => .mapM fun entry _ => readResponse_steady typeName responses _ _

/-! ## §5. Operations. -/

theorem readEntry_steady (m : Mapping) : (readEntry m).Steady K :=
  .mapM fun _ _ => .lookup fun _ => .lift fun _ => .lift fun _ => .pure

theorem readRequirements_steady (security : Sequence) : (readRequirements security).Steady K := by
  unfold readRequirements
  exact .lift fun mappings => (Steady.mapM fun m _ => readEntry_steady m).bind fun _ => .pure

theorem declareScheme_steady (key : String) (m : Mapping) : (declareScheme key m).Steady tables := by
  have hscheme : (readScheme key m).Steady tables := by
    unfold readScheme
    refine .reading .ignore fun _ => .lookup fun found => .lift fun schemeType => .lookup fun _ => ?_
    exact .lookup fun _ => .lookup fun _ => .lookup fun _ => .pure
  unfold declareScheme
  refine hscheme.bind fun scheme => .report rfl fun _ => .update fun s => ?_
  exact .inr ⟨.securityScheme scheme, trivial, fun t _ => ⟨t.addSecurityScheme scheme, rfl, rfl⟩⟩

theorem readSchemes_steady (schemes : Mapping) : (readSchemes schemes).Steady tables := by
  unfold readSchemes
  exact .reading .mappingEntries fun entries => .forM fun entry _ => declareScheme_steady _ _

theorem readParameter_steady (typeName : Option String) (m : Mapping) : (readParameter typeName m).Steady K := by
  unfold readParameter
  split
  next => exact .throw
  split
  next => exact .throw
  next =>
    refine .reading .ignore fun _ => .lookup fun _ => .lift fun name => .lookup fun _ => .lift fun location => ?_
    refine .lookup fun _ => .lift fun node => Steady.bind (readSchemaTo_steady _ node) fun schema => ?_
    exact .lookup fun _ => .lookup fun _ => .lookup fun _ => .lookup fun _ => .pure

theorem readParameters_steady (typeName : Option String) (m : Mapping) :
    (readParameters typeName m).Steady K := by
  unfold readParameters
  refine .lookup fun found => ?_
  split
  next => exact .pure
  next => exact .lift fun mappings => .mapM fun p _ => readParameter_steady typeName p

theorem readTags_steady (defaultTag : String) (m : Mapping) : (readTags defaultTag m).Steady K := by
  unfold readTags
  refine (readTexts_steady m _).bind fun tags => ?_
  split
  next => exact .pure
  next =>
    refine .foldlM (fun tags tag _ => ?_) []
    unfold addTag
    split
    next => exact .report rfl fun _ => .pure
    next => exact .pure

theorem readOperation_steady (defaults : Defaults) (path : String) (common : List Parameter)
    (method : HttpMethod) (m : Mapping) :
    (readOperation defaults path common method m).Steady tables := by
  unfold readOperation
  refine .reading .ignore fun _ => .lookup fun id => .lookup fun _ => .lookup fun _ => ?_
  refine (readTags_steady _ m).bind fun tags => (readParameters_steady _ m).bind fun own => ?_
  refine .lookup fun body => (Steady.optionally (readRequestBody_steady _) _).bind fun bodies => ?_
  refine .lookup fun found => (Steady.optionally (readResponses_steady _) _).bind fun responses => ?_
  exact .lookup fun found => (Steady.optionally readRequirements_steady _).bind fun security => .pure

theorem readMethod_steady (defaults : Defaults) (path : String) (common : List Parameter) (item : Mapping)
    (key : String) : (readMethod defaults path common item key).Steady tables := by
  unfold readMethod
  split
  next => exact .throw
  next method _ =>
    refine .lookup fun found => .lift fun m => ?_
    refine (readOperation_steady defaults path common method m).bind fun operation => ?_
    exact .report rfl fun _ => .addOperation operation

theorem readPaths_steady (defaults : Defaults) (paths : Mapping) :
    (readPaths defaults paths).Steady tables := by
  unfold readPaths
  refine .reading .mappingEntries fun entries => .forM fun entry _ => ?_
  unfold readItem
  refine .reading .ignore fun _ => (readParameters_steady none _).bind fun common => ?_
  exact .forM fun key _ => readMethod_steady defaults _ common _ key

/-! ## §6. Documents. -/

theorem readServer_steady (m : Mapping) : (readServer m).Steady K := by
  unfold readServer
  exact .reading .ignore fun _ => .lookup fun _ => .lift fun _ => .lookup fun _ => .lookup fun _ => .pure

theorem readServers_steady (root : Mapping) : (readServers root).Steady K := by
  unfold readServers
  refine .lookup fun found => ?_
  split
  next => exact .pure
  next =>
    refine .lift fun _ => (Steady.mapM fun m _ => readServer_steady m).bind fun servers => ?_
    split
    next => exact .pure
    next => exact .pure

theorem declareInfo_steady (m : Mapping) : (declareInfo m).Steady tables := by
  have hcontact : ∀ c, (some <$> readContact c).Steady tables := by
    intro c
    unfold readContact
    refine Steady.map ?_
    exact .lookup fun _ => .lookup fun _ => .lookup fun _ => .pure
  have hinfo : (readInfo m).Steady tables := by
    unfold readInfo
    refine .reading .ignore fun _ => .lookup fun _ => (Steady.optionally hcontact _).bind fun _ => ?_
    exact .lookup fun _ => .lookup fun _ => .lookup fun _ => .pure
  unfold declareInfo
  refine hinfo.bind fun info => .update fun s => .inr ⟨.describe info s.servers, trivial, fun t h => ?_⟩
  refine ⟨{ t with info }, rfl, ?_⟩
  rw [Spec.SameTables.servers h]
  rfl

theorem readComponentModels_steady (components : Mapping) : (readComponentModels components).Steady tables := by
  unfold readComponentModels
  exact .lookup fun _ => .optionally readModels_steady _

theorem readComponentSchemes_steady (components : Mapping) :
    (readComponentSchemes components).Steady tables := by
  unfold readComponentSchemes
  exact .lookup fun _ => .optionally readSchemes_steady _

/-- **Reading the entry document depends on the tables of the spec only.** -/
theorem readEntryDocument_steady (options : Options) (root : Mapping) :
    (readEntryDocument options root).Steady tables := by
  have hdescribe : ∀ servers, (Building.update fun spec => .ok { spec with servers }).Steady tables := by
    refine fun servers => .update fun s => .inr ⟨.describe s.info servers, trivial, fun t h => ?_⟩
    refine ⟨{ t with servers }, rfl, ?_⟩
    rw [Spec.SameTables.info h]
    rfl
  have hsecurity : (readCommonSecurity root).Steady tables := by
    unfold readCommonSecurity
    exact .lookup fun _ => .optionally readRequirements_steady _
  unfold readEntryDocument
  refine .reading .ignore fun _ => .lookup fun _ => (Steady.optionally declareInfo_steady _).bind fun _ => ?_
  refine (readServers_steady root).bind fun servers => (hdescribe servers).bind fun _ => ?_
  refine .lookup fun _ => (Steady.optionally readComponentModels_steady _).bind fun _ => ?_
  refine hsecurity.bind fun security => .lookup fun _ => ?_
  refine (Steady.optionally (readPaths_steady _) _).bind fun _ => ?_
  exact .optionally readComponentSchemes_steady _

/-- **Reading a document that is only referenced depends on the tables of the spec only.** -/
theorem readForeignDocument_steady (root : Mapping) : (readForeignDocument root).Steady tables := by
  unfold readForeignDocument
  refine .reading .ignore fun _ => .lookup fun found => ?_
  split
  next => exact .pure
  next components _ => exact .reading .ignore fun _ => readComponentModels_steady components

end Build

end OpenApi
