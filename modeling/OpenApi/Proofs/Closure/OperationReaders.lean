/-
  OpenApi.Proofs.Closure.OperationReaders — what is found in operations.

  The references of an operation are written in the schemas of its parameters and contents. An object that is
  declared in place of a content, unless it is a form, becomes a model, or is that of an earlier content; either way
  a reference to it is recorded.
-/
import OpenApi.Proofs.Build.OperationReaders
import OpenApi.Proofs.Closure.SchemaReaders

namespace OpenApi.Build

open Building (Finds Silent Yields)

variable {m : Mapping} {file : String}

/-! ## §1. Contents. -/

/-- The reference to a model is recorded and given. -/
theorem refer_yields (r : SchemaRef) :
    (do
      Building.addReference r
      pure r : Building SchemaRef).Yields fun _ changes => changes = [.reference r] := by
  intro session r' after hrun
  obtain ⟨_, middle, hadd, hrun⟩ := Building.run_bind_ok hrun
  obtain ⟨-, rfl⟩ := Building.run_pure_ok hrun
  obtain ⟨-, hleads⟩ := Building.run_addReference r session
  rw [hadd] at hleads
  exact ⟨_, hleads.spec, rfl⟩

/-- The name of the model that an object becomes is known before, or it is added; then it is referred to. -/
theorem nameObject_finds (hfile : m.filename = file) (properties : List Property) (name contentType : String) :
    (nameObject properties name contentType m).Finds file (fun _ => True) (.inside [] [name]) := by
  subst hfile
  unfold nameObject
  refine .ask fun s => ?_
  split
  next known hknown =>
    split
    next =>
      -- the same object was named before, under another content type; only the reference is recorded
      refine (refer_yields _).mono fun r changes hchanges => ⟨trivial, ?_⟩
      rw [hchanges]
      exact .of_known (Spec.mem_modelNames_of_modelNamed? hknown)
    next => exact Yields.throw
  next => exact .throw
  next =>
    refine Yields.bind (Silent.of_reading _) ?_
    rintro described _ rfl
    refine Yields.bind (Silent.of_report _) ?_
    rintro _ _ rfl
    have hname : (properties.foldl GenericModel.insert (.empty name)).name = name := name_foldl_insert _
    let model : Model :=
      .generic { properties.foldl GenericModel.insert (.empty name) with description := described.optional }
    refine Yields.bind (Q := fun _ changes => changes = [.model m.filename model])
      (.update fun s t hadd => ⟨.model m.filename model, hadd, rfl⟩) ?_
    rintro _ _ rfl
    refine (refer_yields _).mono fun r changes hchanges => ⟨trivial, ?_⟩
    rw [hchanges]
    have hmodel : model.name = name := hname
    rw [← hmodel]
    exact Findings.Told.of_new model

theorem readContent_finds (hfile : m.filename = file) (required : Bool) (modelName declaredType : String) :
    (readContent required modelName declaredType m).Finds file (fun _ => True)
      (.inside (m.node.value? "schema").toList (if m.node.becomesModel declaredType then [modelName] else [])) := by
  unfold readContent
  refine .reading fun _ => Finds.mapping (fun hnone l hl => ?_) fun c l hc hcfile hl => ?_
  · rw [hl, hnone, if_neg (by simp [Node.becomesModel, hnone]), Option.toList_none, Findings.inside_nil]
    exact .report fun _ => .pure trivial
  · rw [hl, hc, Option.toList_some, ← List.nil_append (ite _ _ _), ← List.append_nil [c.node], ← Findings.inside_and,
      ← Findings.references_eq_inside]
    refine (readSchemaTo_finds _ c (hcfile.trans hfile)).bind fun schema hobject => ?_
    -- what is an object in the tree is read as one, so the tree tells what becomes a model
    have hmodel : m.node.becomesModel declaredType =
        (c.node.isObject && !Content.isForm ⟨essence declaredType, required, schema⟩) := by
      unfold Node.becomesModel
      rw [hc]
      rfl
    dsimp only
    split
    next properties =>
      have hobject' : c.node.isObject = true := hobject.1 ⟨properties, rfl⟩
      rw [hmodel, hobject']
      split
      next hform =>
        rw [hform]
        exact (Finds.pure trivial).congr Findings.inside_nil.symm
      next hform =>
        rw [Bool.eq_false_iff.2 hform]
        exact (nameObject_finds (hcfile.trans hfile) properties modelName _).last fun r _ => .pure trivial
    next hother =>
      have hplain : c.node.isObject = false := Bool.eq_false_iff.2 fun h =>
        let ⟨properties, heq⟩ := hobject.2 h
        hother properties heq
      rw [hmodel, hplain]
      exact (Finds.pure trivial).congr Findings.inside_nil.symm

/-- Reading contents finds what is in their schemas; they share the name of the model that they become. -/
theorem readContents_finds (hfile : m.filename = file) (required : Bool) (modelName : String) :
    (readContents required modelName m).Finds file (fun _ => True)
      (.inside (m.node.members.filterMap fun e => e.2.value? "schema")
        (m.node.members.flatMap fun e => if e.2.becomesModel e.1 then [modelName] else [])) := by
  unfold readContents
  refine Finds.mappingEntries fun entries hentries hfiles => ?_
  rw [← hentries, List.filterMap_eq_flatMap_toList, ← Findings.each_inside, Findings.each_map]
  refine (Finds.mapM fun e he => ?_).last fun contents _ => .pure trivial
  exact readContent_finds ((hfiles e he).trans hfile) required modelName e.1

/-- The contents of a body, which stand under its key. -/
theorem contents_of_body {body : Node} (modelName : String) :
    (.each (body.value? "content").toList fun c =>
      .inside (c.members.filterMap fun e => e.2.value? "schema")
        (c.members.flatMap fun e => if e.2.becomesModel e.1 then [modelName] else [])) =
      Findings.inside body.contentSchemas (body.bodyModels modelName) := by
  have hparts : body.contentSchemas = (body.membersAt "content").filterMap fun e => e.2.value? "schema" := by
    unfold Node.contentSchemas Node.valuesAt
    rw [List.filterMap_map]
    rfl
  unfold Node.bodyModels
  rw [hparts]
  cases hbody : body.value? "content" with
  | none =>
    rw [Node.membersAt_of_none hbody, Option.toList_none, Findings.each_nil]
    exact Findings.inside_nil.symm
  | some c =>
    rw [Node.membersAt_of_value? hbody, Option.toList_some, Findings.each_cons, Findings.each_nil, Findings.and_none]

theorem readRequestBody_finds (hfile : m.filename = file) (typeName : String) :
    (readRequestBody typeName m).Finds file (fun _ => True)
      (.inside m.node.contentSchemas (m.node.bodyModels (typeName ++ "Request"))) := by
  unfold readRequestBody
  split
  next => exact .throw
  next =>
    refine .reading fun _ => .reading fun required => ?_
    refine Finds.mapping (fun _ l hl => .required_missing hl) fun c l hc hcfile hl => .required hl ?_
    rw [← contents_of_body, hc, Option.toList_some, Findings.each_cons, Findings.each_nil, Findings.and_none]
    exact readContents_finds (hcfile.trans hfile) _ _

/-- What is found in the response under a key. -/
def responseFindings (typeName : String) (e : String × Node) : Findings :=
  .inside e.2.contentSchemas ((StatusCode.parse e.1).toList.flatMap fun status =>
    e.2.bodyModels (typeName ++ Text.pascalCase status.text ++ "Response"))

theorem readResponse_finds (hfile : m.filename = file) (typeName : String) (responses : Mapping) (key : String) :
    (readResponse typeName responses key m).Finds file (fun _ => True)
      (responseFindings typeName (key, m.node)) := by
  unfold readResponse responseFindings
  split
  next => exact .throw
  next status hstatus =>
  split
  next => exact .throw
  next =>
    rw [hstatus, Option.toList_some, List.flatMap_singleton, ← contents_of_body, ← Findings.and_none (.each _ _)]
    refine .reading fun _ => Finds.optional (fun c hcfile => ?_) fun contents => ?_
    · exact readContents_finds (hcfile.trans hfile) _ _
    · exact .reading fun _ => .pure trivial

theorem readResponses_finds (hfile : m.filename = file) (typeName : String) :
    (readResponses typeName m).Finds file (fun _ => True)
      (.each m.node.members (responseFindings typeName)) := by
  unfold readResponses
  refine Finds.mappingEntries fun entries hentries hfiles => ?_
  rw [← hentries, Findings.each_map]
  exact Finds.mapM fun e he => readResponse_finds ((hfiles e he).trans hfile) typeName m e.1

/-! ## §2. Parameters. -/

theorem readParameter_finds (hfile : m.filename = file) (typeName : Option String) :
    (readParameter typeName m).Finds file (fun _ => True) (.inside (m.node.value? "schema").toList []) := by
  unfold readParameter
  split
  next => exact .throw
  split
  next => exact .throw
  next =>
    refine .reading fun _ => .reading fun _ => .lift fun name _ => .reading fun _ => .lift fun location _ => ?_
    refine Finds.mapping (fun _ l hl => .required_missing hl) fun c l hc hcfile hl => .required hl ?_
    rw [hc, Option.toList_some, ← Findings.references_eq_inside]
    refine (readSchemaTo_finds _ c (hcfile.trans hfile)).last fun schema _ => ?_
    exact .reading fun _ => .reading fun _ => .reading fun _ => .reading fun _ => .pure trivial

theorem readParameters_finds (hfile : m.filename = file) (typeName : Option String) :
    (readParameters typeName m).Finds file (fun _ => True) (.inside m.node.parameterSchemas []) := by
  unfold readParameters Node.parameterSchemas
  refine Finds.sequence (fun hnone l hl => ?_) fun s l hs hsfile hl => ?_
  · rw [hl, Node.itemsAt_of_none hnone]
    exact (Finds.pure trivial).congr Findings.inside_nil.symm
  · rw [hl, Node.itemsAt_of_value? hs]
    refine Finds.mappings fun ms hms hfiles => ?_
    rw [← hms, List.filterMap_map, List.filterMap_eq_flatMap_toList]
    refine (Finds.mapM fun c hc => ?_).congr (Findings.each_inside_nil ms _)
    exact readParameter_finds ((hfiles c hc).trans (hsfile.trans hfile)) typeName

/-! ## §3. Operations. -/

theorem readOperation_finds (hfile : m.filename = file) (defaults : Defaults) (path : String)
    (common : List Parameter) (method : HttpMethod) :
    (readOperation defaults path common method m).Finds file (fun _ => True)
      (.inside m.node.operationSchemas (m.node.operationModels path method)) := by
  unfold readOperation
  refine .reading fun _ => Finds.string fun id hid => .reading fun _ => .reading fun _ => ?_
  have hid' : id.getD (Operation.derivedId path method) =
      (m.node.textAt? "operationId").getD (Operation.derivedId path method) := by
    unfold Lookup.getD
    rw [hid]
  rw [hid']
  -- the name of the operation is that of all models that its bodies become
  generalize htype : Text.pascalCase ((m.node.textAt? "operationId").getD (Operation.derivedId path method)) = typeName
  refine .after (readTags_silent _ m) fun tags => ?_
  have hall : Findings.inside m.node.operationSchemas (m.node.operationModels path method) =
      (Findings.inside m.node.parameterSchemas []).and
        ((Findings.each (m.node.value? "requestBody").toList fun c =>
            .inside c.contentSchemas (c.bodyModels (typeName ++ "Request"))).and
          ((Findings.each (m.node.value? "responses").toList fun c =>
            .each c.members (responseFindings typeName)).and .none)) := by
    have hparts : m.node.operationSchemas = m.node.parameterSchemas ++
        ((m.node.value? "requestBody").toList.flatMap Node.contentSchemas ++
          (m.node.membersAt "responses").flatMap fun e => e.2.contentSchemas) := by
      unfold Node.operationSchemas Node.valuesAt
      rw [List.flatMap_append, List.flatMap_map]
    unfold responseFindings Node.operationModels
    rw [Findings.each_membersAt, Findings.and_none, Findings.each_inside, Findings.each_inside, Findings.inside_and,
      Findings.inside_and, hparts, htype]
    rfl
  rw [hall]
  refine (readParameters_finds hfile _).bind fun own _ => ?_
  refine Finds.optional (fun c hcfile => readRequestBody_finds (hcfile.trans hfile) _) fun bodies => ?_
  refine Finds.optional (fun c hcfile => readResponses_finds (hcfile.trans hfile) _) fun responses => ?_
  refine .reading fun _ => .after (.optionally readRequirements_silent _) fun security => .pure trivial

/-- What is found in the operation under a key of a path item. -/
def methodFindings (path : String) (e : String × Node) : Findings :=
  .inside e.2.operationSchemas ((Spelled.ofText? e.1 : Option HttpMethod).toList.flatMap fun method =>
    e.2.operationModels path method)

theorem readMethod_finds (hfile : m.filename = file) (defaults : Defaults) (path : String) (common : List Parameter)
    (key : String) :
    (readMethod defaults path common m key).Finds file (fun _ => True)
      (.each (m.node.get? key).toList fun c => methodFindings path (key, c)) := by
  unfold readMethod methodFindings
  split
  next => exact .throw
  next method hmethod =>
    refine Finds.mapping (fun _ l hl => .required_missing hl) fun c l hc hcfile hl => .required hl ?_
    rw [(Node.value?_eq_some.1 hc).1, Option.toList_some, Findings.each_cons, Findings.each_nil, Findings.and_none,
      hmethod, Option.toList_some, List.flatMap_singleton]
    refine (readOperation_finds (hcfile.trans hfile) defaults path common method).last fun operation _ => ?_
    exact .report fun _ => .of_yields (.update fun s t hadd => ⟨.operation operation, hadd, trivial, fun known =>
      .of_other rfl rfl⟩)

/-- What is found in a path item. -/
def itemFindings (e : String × Node) : Findings :=
  (Findings.inside e.2.parameterSchemas []).and (.each e.2.operations (methodFindings e.1))

theorem readItem_finds (hfile : m.filename = file) (defaults : Defaults) (path : String) :
    (readItem defaults path m).Finds file (fun _ => True) (itemFindings (path, m.node)) := by
  unfold readItem itemFindings
  refine .reading fun _ => (readParameters_finds hfile none).bind fun common _ => ?_
  refine (Finds.forM fun key _ => readMethod_finds hfile defaults path common key).congr ?_
  exact Findings.each_members m.node (fun key => !isItemKey key) (methodFindings path)

/-- **Reading paths finds the references that are written in their schemas, and the bodies that become models.** -/
theorem readPaths_finds (hfile : m.filename = file) (defaults : Defaults) :
    (readPaths defaults m).Finds file (fun _ => True) (.each m.node.members itemFindings) := by
  unfold readPaths
  refine Finds.mappingEntries fun entries hentries hfiles => ?_
  rw [← hentries, Findings.each_map]
  exact Finds.forM fun e he => readItem_finds ((hfiles e he).trans hfile) defaults e.1

/-- All paths of a document. -/
theorem each_itemFindings (root : Node) :
    .each (root.membersAt "paths") itemFindings = Findings.inside root.pathSchemas root.promotedNames := by
  have hparts : root.pathSchemas = (root.membersAt "paths").flatMap fun item =>
      item.2.parameterSchemas ++ item.2.operations.flatMap fun e => e.2.operationSchemas := by
    unfold Node.pathSchemas Node.valuesAt
    rw [List.flatMap_map]
  have hitem : ∀ e, itemFindings e = .inside
      (e.2.parameterSchemas ++ e.2.operations.flatMap fun o => o.2.operationSchemas)
      (e.2.operations.flatMap fun o => (Spelled.ofText? o.1 : Option HttpMethod).toList.flatMap fun method =>
        o.2.operationModels e.1 method) := by
    intro e
    unfold itemFindings methodFindings
    rw [Findings.each_inside, Findings.inside_and, List.nil_append]
  rw [Findings.each_congr fun e _ => hitem e, Findings.each_inside, hparts]
  rfl

end OpenApi.Build
