/-
  OpenApi.Proofs.Build.Survey — what a build reads.

  A build that succeeds has read every named schema of every document that it looked at, into a model of the spec, and
  every content of every body of the entry document. What these steps bring about, and a growing spec keeps, holds of
  the spec in the end. Main statement: `survey_of_readAll`.
-/
import OpenApi.Proofs.Build.DocumentReaders
import OpenApi.Proofs.Build.Growth
import OpenApi.Proofs.Strictness.DocumentReaders

namespace OpenApi

/-! ## §1. The contents of a document. -/

/-- A content of a body: the name of the model that an object becomes there, the type under which the content is
declared, and the node of the content. -/
structure BodyContent where
  modelName : String
  declaredType : String
  media : Node

namespace Node

/-- The contents of a body. -/
def bodyContents (modelName : String) (body : Node) : List BodyContent :=
  (body.membersAt "content").map fun e => ⟨modelName, e.1, e.2⟩

/-- The contents of the response under a key. -/
def responseContents (typeName : String) (e : String × Node) : List BodyContent :=
  (StatusCode.parse e.1).toList.flatMap fun status =>
    e.2.bodyContents (typeName ++ Text.pascalCase status.text ++ "Response")

/-- The contents of the request body and the responses of an operation. -/
def operationContents (path : String) (method : HttpMethod) (op : Node) : List BodyContent :=
  let typeName := Text.pascalCase ((op.textAt? "operationId").getD (Operation.derivedId path method))
  (op.value? "requestBody").toList.flatMap (bodyContents (typeName ++ "Request")) ++
    (op.membersAt "responses").flatMap (responseContents typeName)

/-- The contents of the operation under a key of a path item. -/
def methodContents (path : String) (e : String × Node) : List BodyContent :=
  (Spelled.ofText? e.1 : Option HttpMethod).toList.flatMap fun method => e.2.operationContents path method

/-- The contents of all operations of a document. -/
def allContents (root : Node) : List BodyContent :=
  (root.membersAt "paths").flatMap fun item => item.2.operations.flatMap (methodContents item.1)

theorem mem_bodyContents {modelName : String} {body c : Node} (h : body.value? "content" = some c) :
    body.bodyContents modelName = c.members.map fun e => ⟨modelName, e.1, e.2⟩ := by
  unfold bodyContents
  rw [membersAt_of_value? h]

theorem bodyContents_of_none {modelName : String} {body : Node} (h : body.value? "content" = none) :
    body.bodyContents modelName = [] := by
  unfold bodyContents
  rw [membersAt_of_none h, List.map_nil]

end Node

namespace Build

open Building (Leaves Silent)
open Spec (Kept)

variable {m : Mapping} {d : Document}

/-! ## §2. Contents that were read. -/

/-- The content of the document was read, and the spec has grown since. -/
def ContentRead (d : Document) (c : BodyContent) (s : Spec) : Prop :=
  ∃ (m : Mapping) (required : Bool) (content : Option Content), m.document = d ∧ m.node = c.media ∧
    (readContent required c.modelName c.declaredType m).Passed content s

/-- The contents of the document were read. -/
def AllRead (d : Document) (contents : List BodyContent) (s : Spec) : Prop := ∀ c ∈ contents, ContentRead d c s

theorem ContentRead.kept (d : Document) (c : BodyContent) : Kept (ContentRead d c) :=
  .exists fun _ => .exists fun _ => .exists fun _ => .and (.const _) (.and (.const _) (Building.Passed.kept _ _))

theorem AllRead.kept (d : Document) (contents : List BodyContent) : Kept (AllRead d contents) :=
  .forall fun c => .forall fun _ => ContentRead.kept d c

theorem AllRead.nil (d : Document) (s : Spec) : AllRead d [] s := fun _ hc => absurd hc List.not_mem_nil

theorem allRead_append {contents more : List BodyContent} {s : Spec} :
    AllRead d (contents ++ more) s ↔ AllRead d contents s ∧ AllRead d more s := List.forall_mem_append

theorem allRead_flatMap {α : Type} {xs : List α} {f : α → List BodyContent} {s : Spec} :
    AllRead d (xs.flatMap f) s ↔ ∀ x ∈ xs, AllRead d (f x) s := by
  unfold AllRead
  simp only [List.mem_flatMap]
  constructor
  · exact fun h x hx c hc => h c ⟨x, hx, hc⟩
  · intro h c hc
    obtain ⟨x, hx, hc⟩ := hc
    exact h x hx c hc

theorem readContents_leaves (hd : m.document = d) (required : Bool) (modelName : String) :
    (readContents required modelName m).Leaves fun _ =>
      AllRead d (m.node.members.map fun e => ⟨modelName, e.1, e.2⟩) := by
  unfold readContents
  refine Leaves.mappingEntries fun entries hentries hdocuments => ?_
  have hall : (entries.mapM fun e => readContent required modelName e.1 e.2).Leaves fun contents s =>
      List.Forall₂ (fun e content => (readContent required modelName e.1 e.2).Passed content s) entries contents :=
    Leaves.mapM (fun e content => Building.Passed.kept _ content) fun e _ =>
      (Leaves.of_records (readContent_records required modelName e.1 e.2)).passed
  refine Leaves.bind (fun contents s t hgrows h => h.imp fun e c => Building.Passed.kept _ c s t hgrows) hall
    fun contents => .pure fun s hpassed => ?_
  rw [← hentries, List.map_map]
  intro c hc
  obtain ⟨e, he, rfl⟩ := List.mem_map.1 hc
  obtain ⟨content, -, hcontent⟩ := Outcome.exists_right hpassed he
  exact ⟨e.2, required, content, (hdocuments e he).trans hd, rfl, hcontent⟩

theorem readRequestBody_leaves (hd : m.document = d) (typeName : String) :
    (readRequestBody typeName m).Leaves fun _ => AllRead d (m.node.bodyContents (typeName ++ "Request")) := by
  unfold readRequestBody
  split
  next => exact .throw
  next =>
    refine .reading fun _ => .reading fun required => Leaves.mapping (fun _ l hl => ?_) fun c l hc hdocument hl => ?_
    · exact .required fun c hc => absurd (hl.symm.trans hc) nofun
    · refine .required fun c' hc' => ?_
      obtain rfl : c = c' := Option.some.inj (hl.symm.trans hc')
      rw [Node.mem_bodyContents hc]
      exact readContents_leaves (hdocument.trans hd) _ _

theorem readResponse_leaves (hd : m.document = d) (typeName : String) (responses : Mapping) (key : String) :
    (readResponse typeName responses key m).Leaves fun _ =>
      AllRead d (Node.responseContents typeName (key, m.node)) := by
  unfold readResponse Node.responseContents
  split
  next => exact .throw
  next status hstatus =>
  split
  next => exact .throw
  next =>
    rw [hstatus, Option.toList_some, List.flatMap_singleton]
    refine .reading fun _ => Leaves.optional (fun _ => AllRead.kept d _) (fun hnone s => ?_) (fun c hc hdocument => ?_)
      fun contents => .reading fun _ => .pure fun s h => h
    · rw [Node.bodyContents_of_none hnone]
      exact AllRead.nil d s
    · rw [Node.mem_bodyContents hc]
      exact readContents_leaves (hdocument.trans hd) _ _

theorem readResponses_leaves (hd : m.document = d) (typeName : String) :
    (readResponses typeName m).Leaves fun _ =>
      AllRead d (m.node.members.flatMap (Node.responseContents typeName)) := by
  unfold readResponses
  refine Leaves.mappingEntries fun entries hentries hdocuments => ?_
  rw [← hentries]
  refine (Leaves.mapM (F := fun e _ => AllRead d (Node.responseContents typeName (e.1, e.2.node)))
    (fun e _ => AllRead.kept d _) fun e he => ?_).mono fun _ s hall => ?_
  · exact readResponse_leaves ((hdocuments e he).trans hd) typeName m e.1
  · rw [allRead_flatMap]
    intro e he
    obtain ⟨e', he', rfl⟩ := List.mem_map.1 he
    obtain ⟨_, -, hread⟩ := Outcome.exists_right hall he'
    exact hread

/-! ## §3. Operations. -/

theorem readOperation_leaves (hd : m.document = d) (defaults : Defaults) (path : String) (common : List Parameter)
    (method : HttpMethod) :
    (readOperation defaults path common method m).Leaves fun _ =>
      AllRead d (m.node.operationContents path method) := by
  unfold readOperation Node.operationContents
  refine .reading fun _ => Leaves.string fun id hid => .reading fun _ => .reading fun _ => ?_
  have hid' : id.getD (Operation.derivedId path method) =
      (m.node.textAt? "operationId").getD (Operation.derivedId path method) := by
    unfold Lookup.getD
    rw [hid]
  rw [hid']
  generalize Text.pascalCase ((m.node.textAt? "operationId").getD (Operation.derivedId path method)) = typeName
  refine .after (readTags_silent _ m) fun tags => .recorded (readParameters_records _ m) fun own => ?_
  -- the request body comes first, and what it leaves is kept while the responses are read
  refine Leaves.optional (F := fun _ => AllRead d ((m.node.value? "requestBody").toList.flatMap
    (Node.bodyContents (typeName ++ "Request")))) (fun _ => AllRead.kept d _) (fun hnone s => ?_)
    (fun c hc hdocument => ?_) fun bodies => ?_
  · rw [hnone]
    exact AllRead.nil d s
  · rw [hc, Option.toList_some, List.flatMap_singleton]
    exact readRequestBody_leaves (hdocument.trans hd) typeName
  refine Leaves.optional (F := fun _ => AllRead d ((m.node.membersAt "responses").flatMap
    (Node.responseContents typeName))) (fun _ => AllRead.kept d _) (fun hnone s => ?_)
    (fun c hc hdocument => ?_) fun responses => ?_
  · rw [Node.membersAt_of_none hnone]
    exact AllRead.nil d s
  · rw [Node.membersAt_of_value? hc]
    exact readResponses_leaves (hdocument.trans hd) typeName
  refine .reading fun _ => .after (Silent.optionally readRequirements_silent _) fun security => ?_
  exact .pure fun s hresponses hbody => allRead_append.2 ⟨hbody, hresponses⟩

theorem readMethod_leaves (hd : m.document = d) (defaults : Defaults) (path : String) (common : List Parameter)
    (key : String) :
    (readMethod defaults path common m key).Leaves fun _ =>
      AllRead d ((m.node.get? key).toList.flatMap fun c => Node.methodContents path (key, c)) := by
  unfold readMethod Node.methodContents
  split
  next => exact .throw
  next method hmethod =>
    refine Leaves.mapping (fun _ l hl => ?_) fun c l hc hdocument hl => ?_
    · exact .required fun c hc => absurd (hl.symm.trans hc) nofun
    · refine .required fun c' hc' => ?_
      obtain rfl : c = c' := Option.some.inj (hl.symm.trans hc')
      rw [(Node.value?_eq_some.1 hc).1, Option.toList_some, List.flatMap_singleton, hmethod, Option.toList_some,
        List.flatMap_singleton]
      refine Leaves.bind (fun _ => AllRead.kept d _) (readOperation_leaves (hdocument.trans hd) defaults path common
        method) fun operation => .report fun _ => ?_
      have hadd : (Building.update fun spec => spec.addOperation operation).Yields fun _ _ => True :=
        .update fun s t h => ⟨.operation operation, h, trivial⟩
      exact (Leaves.of_yields hadd).mono fun _ s _ h => h

theorem readItem_leaves (hd : m.document = d) (defaults : Defaults) (path : String) :
    (readItem defaults path m).Leaves fun _ =>
      AllRead d (m.node.operations.flatMap (Node.methodContents path)) := by
  unfold readItem
  refine .reading fun _ => .recorded (readParameters_records none m) fun common => ?_
  refine (Leaves.forM (fun key => AllRead.kept d _) fun key _ =>
    readMethod_leaves hd defaults path common key).mono fun _ s hall => ?_
  rw [allRead_flatMap]
  intro e he
  obtain ⟨hmember, hkey⟩ := List.mem_filter.1 he
  obtain ⟨hkeys, hget⟩ := Node.mem_members.1 hmember
  have hread := hall e.1 (List.mem_filter.2 ⟨hkeys, hkey⟩)
  rwa [hget, Option.toList_some, List.flatMap_singleton] at hread

theorem readPaths_leaves (hd : m.document = d) (defaults : Defaults) :
    (readPaths defaults m).Leaves fun _ =>
      AllRead d (m.node.members.flatMap fun item => item.2.operations.flatMap (Node.methodContents item.1)) := by
  unfold readPaths
  refine Leaves.mappingEntries fun entries hentries hdocuments => ?_
  refine (Leaves.forM (F := fun e => AllRead d (e.2.node.operations.flatMap (Node.methodContents e.1)))
    (fun e => AllRead.kept d _) fun e he => readItem_leaves ((hdocuments e he).trans hd) defaults e.1).mono
    fun _ s hall => ?_
  rw [← hentries, allRead_flatMap]
  intro e he
  obtain ⟨e', he', rfl⟩ := List.mem_map.1 he
  exact hall e' he'

/-! ## §4. Named schemas. -/

/-- The named schema of the document was read into a model of the spec. -/
def SchemaRead (d : Document) (e : String × Node) (s : Spec) : Prop :=
  ∃ (m : Mapping) (model : Model), m.document = d ∧ m.node = e.2 ∧ (readModel e.1 m).Passed model s ∧
    s.StandsIn d.filename model

theorem SchemaRead.kept (d : Document) (e : String × Node) : Kept (SchemaRead d e) :=
  .exists fun _ => .exists fun _ => .and (.const _) (.and (.const _) (.and (Building.Passed.kept _ _)
    (Spec.StandsIn.kept _ _)))

theorem declareModel_leaves (hd : m.document = d) (name : String) :
    (declareModel name m).Leaves fun _ => SchemaRead d (name, m.node) := by
  unfold declareModel
  refine Leaves.bind (Building.Passed.kept _) (Leaves.of_records (readModel_records name m)).passed
    fun model => .report fun _ => ?_
  intro session u after hrun
  obtain ⟨t, hadd, rfl⟩ := Building.run_update_ok hrun
  refine ⟨⟨[.model m.filename model], by rw [Spec.applyAll_cons, Spec.apply, hadd]; rfl⟩, fun hpassed => ?_⟩
  refine ⟨m, model, hd, rfl, hpassed, ?_⟩
  rw [(Spec.addModel_ok hadd).2, ← hd]
  exact Spec.standsIn_withModel _ _ _

theorem readModels_leaves (hd : m.document = d) :
    (readModels m).Leaves fun _ s => ∀ e ∈ m.node.members, SchemaRead d e s := by
  unfold readModels
  refine Leaves.mappingEntries fun entries hentries hdocuments => ?_
  refine (Leaves.forM (F := fun e => SchemaRead d (e.1, e.2.node)) (fun e => SchemaRead.kept d _) fun e he =>
    declareModel_leaves ((hdocuments e he).trans hd) e.1).mono fun _ s hall => ?_
  rw [← hentries]
  intro e he
  obtain ⟨e', he', rfl⟩ := List.mem_map.1 he
  exact hall e' he'

/-- All named schemas of the document were read. -/
def SchemasRead (d : Document) (s : Spec) : Prop := ∀ e ∈ d.root.declaredSchemas, SchemaRead d e s

theorem SchemasRead.kept (d : Document) : Kept (SchemasRead d) :=
  .forall fun e => .forall fun _ => SchemaRead.kept d e

theorem readComponentModels_leaves (hd : m.document = d) :
    (readComponentModels m).Leaves fun _ s => ∀ e ∈ m.node.membersAt "schemas", SchemaRead d e s := by
  unfold readComponentModels
  refine Leaves.mapping (fun hnone l hl => ?_) fun c l hc hdocument hl => ?_
  · rw [hl, Node.membersAt_of_none hnone]
    exact .pure fun s e he => absurd he List.not_mem_nil
  · rw [hl, Node.membersAt_of_value? hc]
    exact readModels_leaves (hdocument.trans hd)

/-! ## §5. Documents. -/

/-- Reading the entry document reads its named schemas and the contents of its operations. -/
theorem readEntryDocument_leaves (options : Options) (hd : m.document = d) (hroot : m.node = d.root) :
    (readEntryDocument options m).Leaves fun _ s => SchemasRead d s ∧ AllRead d d.root.allContents s := by
  subst hd
  unfold readEntryDocument
  refine .reading fun _ => .reading fun found => ?_
  refine .recorded (Building.Records.optionally declareInfo_records (List.nil_subset _) _) fun _ => ?_
  refine .after (readServers_silent m) fun servers => ?_
  -- the schemas are read before the paths, so what is known of them has to last; additions do not undo it
  have hservers : (Building.update fun spec => .ok { spec with servers }).Yields fun _ _ => True :=
    .update fun s t h => ⟨.describe s.info servers, h, trivial⟩
  refine .after hservers fun _ => ?_
  have hrest : ∀ components : Option Mapping, (do
      let security ← readCommonSecurity m
      Building.optionally (readPaths ⟨options.defaultTag, security⟩) () (← m.mapping "paths").optional
      Building.optionally readComponentSchemes () components).Leaves fun _ =>
        AllRead m.document m.document.root.allContents := by
    intro components
    refine .after (readCommonSecurity_silent m) fun security => ?_
    unfold Node.allContents
    rw [← hroot]
    refine Leaves.optional (F := fun _ => AllRead m.document ((m.node.membersAt "paths").flatMap fun item =>
      item.2.operations.flatMap (Node.methodContents item.1))) (fun _ => AllRead.kept m.document _)
      (fun hnone s => ?_) (fun c hc hdocument => ?_) fun _ => ?_
    · rw [Node.membersAt_of_none hnone]
      exact AllRead.nil _ s
    · rw [Node.membersAt_of_value? hc]
      exact readPaths_leaves hdocument _
    · exact (Leaves.of_records (Building.Records.optionally readComponentSchemes_records
        (List.nil_subset _) components)).mono fun _ s _ h => h
  have hschemas : ∀ components : Option Mapping, components.map (·.node) = m.node.value? "components" →
      (∀ c, components = some c → c.document = m.document) →
      (Building.optionally readComponentModels () components).Leaves fun _ => SchemasRead m.document := by
    intro components hnode hdocuments
    unfold SchemasRead Node.declaredSchemas
    rw [← hroot, ← hnode]
    cases components with
    | none => exact .pure fun s e he => absurd he List.not_mem_nil
    | some c => exact readComponentModels_leaves (hdocuments c rfl)
  refine Leaves.mapping (fun hnone l hl => ?_) fun c l hc hdocument hl => ?_
  · rw [hl]
    refine Leaves.bind (fun _ => SchemasRead.kept _) (hschemas none hnone.symm nofun) fun _ => ?_
    exact (hrest none).mono fun _ s hcontents hschemas => ⟨hschemas, hcontents⟩
  · rw [hl]
    refine Leaves.bind (fun _ => SchemasRead.kept _) (hschemas (some c) hc.symm fun c' hc' => ?_) fun _ => ?_
    · rw [← Option.some.inj hc']
      exact hdocument
    · exact (hrest (some c)).mono fun _ s hcontents hschemas => ⟨hschemas, hcontents⟩

/-- Reading a document that is only referenced reads its named schemas. -/
theorem readForeignDocument_leaves (hd : m.document = d) (hroot : m.node = d.root) :
    (readForeignDocument m).Leaves fun _ => SchemasRead d := by
  subst hd
  unfold readForeignDocument SchemasRead Node.declaredSchemas
  rw [← hroot]
  refine .reading fun _ => Leaves.mapping (fun hnone l hl => ?_) fun c l hc hdocument hl => ?_
  · rw [hl, hnone]
    exact .pure fun s e he => absurd he List.not_mem_nil
  · rw [hl, hc]
    exact .reading fun _ => readComponentModels_leaves hdocument

/-- What reading from the root of a document leaves, reading the document leaves. -/
theorem readWith_leaves {read : Mapping → Building Unit} {P : Spec → Prop} (d : Document)
    (hread : ∀ root, root.document = d → root.node = d.root → (read root).Leaves fun _ => P) :
    (readWith read d).Leaves fun _ => P := by
  have hroot : (liftM d.mapping >>= read : Building Unit).Leaves fun _ => P := by
    refine .lift fun root hmapping => ?_
    obtain ⟨hnode, hdocument⟩ := Mapping.of_ofNode hmapping
    exact hread root hdocument hnode
  intro session u after hrun
  rw [run_readWith] at hrun
  cases hfrom : (liftM d.mapping >>= read).run.run { session with usage := .none } with
  | mk result middle =>
    rw [hfrom] at hrun
    obtain ⟨hresult, rfl⟩ := Prod.mk.inj hrun
    cases result with
    | error e => exact absurd hresult nofun
    | ok _ => exact hroot { session with usage := .none } _ _ hfrom

/-! ## §6. Builds. -/

/-- The documents that were visited later than others were read. -/
def Visited.LaterRead (v w : Visited) (s : Spec) : Prop := ∀ e ∈ w.documents, e ∈ v.documents ∨ SchemasRead e.1 s

theorem Visited.LaterRead.kept (v w : Visited) : Kept (v.LaterRead w) :=
  fun _ _ hgrows h e he => (h e he).imp_right (SchemasRead.kept e.1 _ _ hgrows)

theorem Visited.LaterRead.trans {v w x : Visited} {s : Spec} (h : v.LaterRead w s) (h' : w.LaterRead x s) :
    v.LaterRead x s := fun e he => (h' e he).elim (h e) .inr

theorem readReferenced_leaves (loader : Loader) (v : Visited) (file : String) :
    (readReferenced loader v file).Leaves (v.LaterRead ·) := by
  unfold readReferenced
  dsimp only
  refine .after (report_silent _) fun _ => ?_
  split
  next e _ =>
    split
    next => exact .report fun _ => .pure fun s e he => .inl he
    next => exact .throw
  next d _ =>
    refine .report fun _ => Leaves.bind (fun _ => SchemasRead.kept d)
      (readWith_leaves d fun _ => readForeignDocument_leaves) fun u => .pure fun s hread e he => ?_
    obtain he | he := List.mem_append.1 he
    · exact .inl he
    · rw [List.mem_singleton.1 he]
      exact .inr hread

theorem foldlM_readReferenced_leaves (loader : Loader) {files : List String} :
    ∀ v, (files.foldlM (readReferenced loader) v).Leaves (v.LaterRead ·) := by
  induction files with
  | nil => exact fun v => .pure fun s e he => .inl he
  | cons file files ih =>
    intro v
    rw [List.foldlM_cons]
    exact Leaves.bind (fun w => Visited.LaterRead.kept v w) (readReferenced_leaves loader v file) fun w =>
      (ih w).mono fun x s hlater hfirst => hfirst.trans hlater

theorem readPending_leaves (loader : Loader) {rounds : Nat} :
    ∀ v, (readPending loader rounds v).Leaves (v.LaterRead ·) := by
  induction rounds with
  | zero => exact fun v => .pure fun s e he => .inl he
  | succ rounds ih =>
    intro v
    unfold readPending
    refine .spec fun s => ?_
    split
    next => exact .pure fun s e he => .inl he
    next files _ =>
      exact Leaves.bind (fun w => Visited.LaterRead.kept v w) (foldlM_readReferenced_leaves loader v) fun w =>
        (ih w).mono fun x s hlater hfirst => hfirst.trans hlater

/-- The models that a document gives are declared in it. -/
theorem file_of_readWith {read : Mapping → Building Unit} {d : Document} {entry : String}
    {session after : Session} {u : Usage}
    (hread : ∀ (T : Trim) (m m' : Mapping), T.Cuts m m' →
      T.Follows (read m) (read m') (fun _ _ => True) True)
    (h : (readWith read d).run.run session = (.ok u, after)) (hempty : session.spec = .empty entry) :
    ∀ declared ∈ after.spec.models, declared.file = d.filename := by
  obtain ⟨⟨changes, happly, hfrom⟩, -⟩ := readWith_trimmed hread h
  intro declared hdeclared
  rw [hempty] at happly
  rw [Spec.applyAll_models rfl happly] at hdeclared
  exact hfrom _ (Change.mem_declared.1 hdeclared)

/-- **What a build has read.** All named schemas of all documents that were visited are models of the spec, as they
were read. The named schemas of the entry document and all contents of its operations were read by the time when the
models of that document were all that there was. -/
theorem survey_of_readAll {loader : Loader} {options : Options} {entry : String} {v : Visited}
    {session after : Session} (h : (readAll loader options entry).run.run session = (.ok v, after)) :
    (∀ e ∈ v.documents, SchemasRead e.1 after.spec) ∧
      ∃ d entered, (loader.load entry).2 = .ok d ∧ SchemasRead d entered ∧ AllRead d d.root.allContents entered ∧
        (entered.InStep ∧ ∀ declared ∈ entered.models, declared.file = d.filename) ∧ entered.Grows after.spec := by
  obtain ⟨d, started, hload, hspec, h⟩ := readAll_ok h
  obtain ⟨u, read, hread, h⟩ := Building.run_bind_ok h
  obtain ⟨⟨changes, happly⟩, hschemas, hcontents⟩ :=
    readWith_leaves d (fun _ => readEntryDocument_leaves options) started u read hread
  obtain ⟨hgrows, hlater⟩ := readPending_leaves loader _ read v after h
  refine ⟨fun e he => ?_, d, read.spec, hload, hschemas, hcontents, ?_, hgrows⟩
  · obtain he | hread := hlater e he
    · rw [List.mem_singleton.1 he]
      exact SchemasRead.kept d _ _ hgrows hschemas
    · exact hread
  · have hentered : read.spec.InStep := (Spec.inStep_empty d.filename).applyAll (hspec ▸ happly)
    exact ⟨hentered, file_of_readWith (fun _ _ _ => readEntryDocument_follows options) hread hspec⟩

end Build

end OpenApi
