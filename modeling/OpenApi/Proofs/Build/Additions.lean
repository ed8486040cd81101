/-
  OpenApi.Proofs.Build.Additions — where the models and operations of a spec come from.

  A model is added where a named schema was read, or where the object of a body was, which then gets a name. An
  operation is added only by the step that reads it. So what holds of all that is read holds of all that a spec has.
  Main statements: `modelRead_of_build`, `operationRead_of_build`, and `readPaths_makes` for operations where they
  stand in their paths.
-/
import OpenApi.Proofs.Build.DocumentReaders
import OpenApi.Proofs.Build.Making
import OpenApi.Proofs.Build.Results
import OpenApi.Proofs.Effects.Readers

namespace OpenApi

namespace Build

open Building (Makes Silent Steady)

/-- The model is what some named schema was read to be, or a body whose object got a name. -/
inductive ModelRead : Model → Prop
  | named {name : String} {m : Mapping} {model : Model} {session after : Session}
      (h : (readModel name m).run.run session = (.ok model, after)) : ModelRead model
  | promoted {name : String} {m : Mapping} {properties : List Property} {session after : Session}
      (h : (readSchema (.ofModel name) m).run.run session = (.ok (.object properties), after))
      (description : Option String) :
      ModelRead (.generic { properties.foldl GenericModel.insert (.empty name) with description })

/-- The operation is what some operation of a document was read to be, with the parameters of some path item. -/
def OperationRead (o : Operation) : Prop :=
  ∃ (defaults : Defaults) (path : String) (item : Mapping) (common : List Parameter) (method : HttpMethod) (m : Mapping)
    (session after : Session), (readParameters none item).outcome = .ok common ∧
      (readOperation defaults path common method m).run.run session = (.ok o, after)

/-- If the change adds a model, that one was read, and it adds no operation. -/
structure AddsModels (c : Change) : Prop where
  model : ∀ file m, c = .model file m → ModelRead m
  operation : c.operation? = none

/-- If the change adds a model or an operation, that one was read. -/
structure AddsRead (c : Change) : Prop where
  model : ∀ file m, c = .model file m → ModelRead m
  operation : ∀ o, c = .operation o → OperationRead o

theorem AddsModels.addsRead {c : Change} (h : AddsModels c) : AddsRead c := by
  refine ⟨h.model, ?_⟩
  rintro o rfl
  exact absurd h.operation nofun

/-! ## §1. Models. -/

/-- A step that only records references adds nothing else. -/
theorem makes_of_steady {α : Type} {x : Building α} (h : x.Steady .nothing) : x.Makes AddsModels := by
  intro session a after hrun
  obtain ⟨result, e, hallows, hgoes⟩ := h session trivial
  obtain ⟨-, hleads⟩ := hgoes session trivial
  rw [hrun] at hleads
  refine ⟨e.changes, hleads.spec, fun c hc => ?_⟩
  obtain ⟨r, rfl⟩ := hallows c hc
  exact ⟨fun _ _ => nofun, rfl⟩

theorem addModel_makes (file : String) {model : Model} (hmodel : ModelRead model) :
    (Building.update fun spec => spec.addModel file model).Makes AddsModels := by
  refine .update fun _ _ h => ⟨.model file model, h, ?_, rfl⟩
  rintro _ _ ⟨⟩
  exact hmodel

theorem readModels_makes (schemas : Mapping) : (readModels schemas).Makes AddsModels := by
  unfold readModels
  refine .reading fun entries => .forM fun e _ => ?_
  unfold declareModel
  refine (makes_of_steady (readModel_steady _ _)).given (fun _ _ _ hrun => ModelRead.named hrun) fun model hmodel => ?_
  exact .report fun _ => addModel_makes _ hmodel

theorem readComponentModels_makes (components : Mapping) : (readComponentModels components).Makes AddsModels := by
  unfold readComponentModels
  exact .reading fun _ => .optionally readModels_makes _

/-! ## §2. Operations. -/

theorem nameObject_makes {properties : List Property} {name : String} {m : Mapping} {session after : Session}
    (hread : (readSchema (.ofModel name) m).run.run session = (.ok (.object properties), after)) (contentType : String) :
    (nameObject properties name contentType m).Makes AddsModels := by
  have hrefer : (do
      Building.addReference (.toModel m.filename name)
      pure (.toModel m.filename name) : Building SchemaRef).Makes AddsModels :=
    (makes_of_steady (.addReference _)).bind fun _ => .pure
  unfold nameObject
  refine .spec fun s => ?_
  split
  next =>
    split
    next => exact hrefer
    next => exact .throw
  next => exact .throw
  next =>
    exact .reading fun _ => .report fun _ => (addModel_makes _ (.promoted hread _)).bind fun _ => hrefer

theorem readContent_makes (required : Bool) (modelName declaredType : String) (media : Mapping) :
    (readContent required modelName declaredType media).Makes AddsModels := by
  unfold readContent
  refine .reading fun _ => .reading fun _ => ?_
  split
  next => exact .report fun _ => .pure
  next m _ =>
    -- What is read is kept with the run that read it, since the object may become a model.
    have hsteady : (readSchema (.ofModel modelName) m).Steady .nothing := readSchemaTo_steady _ m
    have hgives : (readSchema (.ofModel modelName) m).Gives fun schema =>
        ∃ session after, (readSchema (.ofModel modelName) m).run.run session = (.ok schema, after) :=
      fun session _ after hrun => ⟨session, after, hrun⟩
    refine (makes_of_steady hsteady).given hgives ?_
    rintro schema ⟨session, after, hrun⟩
    dsimp only
    split
    next =>
      split
      next => exact .pure
      next => exact (nameObject_makes hrun _).bind fun _ => .pure
    next => exact .pure

theorem readContents_makes (required : Bool) (modelName : String) (content : Mapping) :
    (readContents required modelName content).Makes AddsModels := by
  unfold readContents
  exact .reading fun entries => (Makes.mapM fun e => readContent_makes _ _ _ _).bind fun _ => .pure

theorem readRequestBody_makes (typeName : String) (body : Mapping) :
    (readRequestBody typeName body).Makes AddsModels := by
  unfold readRequestBody
  split
  next => exact .throw
  next => exact .reading fun _ => .reading fun _ => .reading fun _ => .lift fun _ => readContents_makes _ _ _

theorem readResponse_makes (typeName : String) (responses : Mapping) (key : String) (m : Mapping) :
    (readResponse typeName responses key m).Makes AddsModels := by
  unfold readResponse
  split
  next => exact .throw
  split
  next => exact .throw
  next =>
    refine .reading fun _ => .reading fun _ => ?_
    exact (Makes.optionally (readContents_makes _ _) _).bind fun _ => .reading fun _ => .pure

theorem readResponses_makes (typeName : String) (responses : Mapping) :
    (readResponses typeName responses).Makes AddsModels := by
  unfold readResponses
  exact .reading fun entries => .mapM fun e => readResponse_makes _ _ _ _

theorem readOperation_makes (defaults : Defaults) (path : String) (common : List Parameter) (method : HttpMethod)
    (m : Mapping) : (readOperation defaults path common method m).Makes AddsModels := by
  unfold readOperation
  refine .reading fun _ => .reading fun _ => .reading fun _ => .reading fun _ => ?_
  refine .after (readTags_silent _ m) fun tags => (makes_of_steady (readParameters_steady _ m)).bind fun own => ?_
  refine .reading fun _ => (Makes.optionally (readRequestBody_makes _) _).bind fun bodies => ?_
  refine .reading fun _ => (Makes.optionally (readResponses_makes _) _).bind fun responses => ?_
  exact .reading fun _ => .after (Silent.optionally readRequirements_silent _) fun _ => .pure

/-! ## §3. Paths. -/

theorem spelling_of_ofText? {α : Type} [Spelled α] {text : String} {value : α}
    (h : Spelled.ofText? text = some value) : Spelled.spelling value = text := by
  simpa using List.find?_some h

/-- Under the path stands an item with the common parameters, and under the method of that item the mapping. -/
def StandsIn (paths : Mapping) (path : String) (common : List Parameter) (method : HttpMethod) (m : Mapping) : Prop :=
  ∃ item, paths.Holds path (path, item) ∧ (readParameters none item).outcome = .ok common ∧
    item.Holds (Spelled.spelling method) (Spelled.spelling method, m)

section

variable {P : Change → Prop} {defaults : Defaults}

/-- The operation that is added is the one that was read. -/
theorem readMethod_makes {path : String} {common : List Parameter} {item : Mapping}
    (hadds : ∀ method m session o after, item.Holds (Spelled.spelling method) (Spelled.spelling method, m) →
      (readOperation defaults path common method m).run.run session = (.ok o, after) → P (.operation o))
    (hmodels : ∀ c, AddsModels c → P c) (key : String) : (readMethod defaults path common item key).Makes P := by
  unfold readMethod
  split
  next => exact .throw
  next method hmethod =>
    refine .given (.silent (.of_reading _))
      (fun _ _ _ hrun => (Prod.mk.inj ((Building.run_lookup item key _ _).symm.trans hrun)).1) fun found hfound => ?_
    refine .given (.silent (.of_lift _)) (fun _ _ _ hrun => (Building.run_lift_ok hrun).1) fun m hm => ?_
    have hholds : item.Holds (Spelled.spelling method) (Spelled.spelling method, m) := by
      rw [spelling_of_ofText? hmethod]
      exact Mapping.holds_iff.2 ⟨found, hfound, hm⟩
    refine Makes.given ((readOperation_makes defaults path common method m).imp hmodels)
      (fun session o after hrun => hadds method m session o after hholds hrun) fun o ho => ?_
    exact .report fun _ => .update fun s t h => ⟨.operation o, h, ho⟩

/-- **What is added when paths are read:** models that were read, and the operations that were read where they stand in
the paths. -/
theorem readPaths_makes {paths : Mapping}
    (hadds : ∀ path common method m session o after, StandsIn paths path common method m →
      (readOperation defaults path common method m).run.run session = (.ok o, after) → P (.operation o))
    (hmodels : ∀ c, AddsModels c → P c) : (readPaths defaults paths).Makes P := by
  unfold readPaths
  have hgives : (liftM paths.mappingEntries : Building _).Gives fun entries =>
      List.Forall₂ paths.Holds paths.keys entries := fun _ _ _ hrun => (Building.run_mappingEntries.1 hrun).1
  refine .given (.silent (.of_reading _)) hgives fun entries hentries => .forM fun e he => ?_
  obtain ⟨path, -, hitem⟩ := Outcome.exists_left hentries he
  obtain ⟨name, item⟩ := e
  obtain rfl : name = path := hitem.name
  have hsteady : (readParameters none item).Steady .nothing := readParameters_steady none item
  unfold readItem
  refine .reading fun _ => .given ((makes_of_steady hsteady).imp hmodels) hsteady.gives fun common hcommon => ?_
  exact .forM fun key _ => readMethod_makes
    (fun method m session o after hm => hadds name common method m session o after ⟨item, hitem, hcommon, hm⟩) hmodels key

end

/-! ## §4. Documents and builds. -/

theorem readComponentModels_addsRead (components : Mapping) : (readComponentModels components).Makes AddsRead :=
  (readComponentModels_makes components).imp fun _ => AddsModels.addsRead

theorem readPaths_addsRead (defaults : Defaults) (paths : Mapping) : (readPaths defaults paths).Makes AddsRead := by
  refine readPaths_makes (fun path common method m session o after hstands hrun => ⟨fun _ _ => nofun, ?_⟩)
    fun _ => AddsModels.addsRead
  obtain ⟨item, -, hcommon, -⟩ := hstands
  rintro o' ⟨⟩
  exact ⟨defaults, path, item, common, method, m, session, after, hcommon, hrun⟩

theorem readEntryDocument_makes (options : Options) (root : Mapping) :
    (readEntryDocument options root).Makes AddsRead := by
  have hinfo : ∀ m, (declareInfo m).Makes AddsRead := fun m =>
    .after (readInfo_silent m) fun info => .update fun s t h =>
      ⟨.describe info s.servers, h, fun _ _ => nofun, fun _ => nofun⟩
  have hschemes : ∀ components, (readComponentSchemes components).Makes AddsRead := fun components =>
    .reading fun _ => .optionally (fun schemes => .reading fun entries => .forM fun e _ =>
      .after (readScheme_silent _ _) fun scheme => .report fun _ => .update fun s t h =>
        ⟨.securityScheme scheme, h, fun _ _ => nofun, fun _ => nofun⟩) _
  unfold readEntryDocument
  refine .reading fun _ => .reading fun _ => (Makes.optionally hinfo _).bind fun _ => ?_
  refine .after (readServers_silent root) fun servers => Makes.bind
    (.update fun s t h => ⟨.describe s.info servers, h, fun _ _ => nofun, fun _ => nofun⟩) fun _ => ?_
  refine .reading fun _ => (Makes.optionally readComponentModels_addsRead _).bind fun _ => ?_
  refine .after (readCommonSecurity_silent root) fun security => .reading fun _ => ?_
  exact (Makes.optionally (readPaths_addsRead _) _).bind fun _ => .optionally hschemes _

theorem readForeignDocument_makes (root : Mapping) : (readForeignDocument root).Makes AddsRead := by
  unfold readForeignDocument
  refine .reading fun _ => .reading fun _ => ?_
  split
  next => exact .pure
  next => exact .reading fun _ => readComponentModels_addsRead _

theorem readWith_makes {read : Mapping → Building Unit} (d : Document) (hread : ∀ root, (read root).Makes AddsRead) :
    (readWith read d).Makes AddsRead := by
  have hroot : (liftM d.mapping >>= read : Building Unit).Makes AddsRead := .lift hread
  intro session u after hrun
  rw [run_readWith] at hrun
  cases hfrom : (liftM d.mapping >>= read).run.run { session with usage := .none } with
  | mk result middle =>
    rw [hfrom] at hrun
    obtain ⟨hresult, rfl⟩ := Prod.mk.inj hrun
    cases result with
    | error e => exact absurd hresult nofun
    | ok _ => exact hroot { session with usage := .none } _ _ hfrom

theorem readReferenced_makes (loader : Loader) (v : Visited) (file : String) :
    (readReferenced loader v file).Makes AddsRead := by
  unfold readReferenced
  dsimp only
  refine .after (report_silent _) fun _ => ?_
  split
  next =>
    split
    next => exact .report fun _ => .pure
    next => exact .throw
  next d _ => exact .report fun _ => (readWith_makes d readForeignDocument_makes).bind fun _ => .pure

theorem readPending_makes (loader : Loader) {rounds : Nat} :
    ∀ v, (readPending loader rounds v).Makes AddsRead := by
  induction rounds with
  | zero => exact fun v => .pure
  | succ rounds ih =>
    intro v
    unfold readPending
    refine .spec fun s => ?_
    split
    next => exact .pure
    next => exact (Makes.foldlM (fun v file _ => readReferenced_makes loader v file) v).bind ih

/-- All that is read from an entry document on adds what was read. -/
theorem changes_addRead {loader : Loader} {options : Options} {entry : String} {s : Spec}
    (h : (build loader options entry).2 = .ok s) :
    ∃ file changes, (Spec.empty file).applyAll changes = .ok s ∧ ∀ c ∈ changes, AddsRead c := by
  obtain ⟨v, after, hread, rfl, -⟩ := build_eq_ok.1 h
  obtain ⟨d, started, -, hspec, hread⟩ := readAll_ok hread
  have hmakes : Makes AddsRead (readWith (readEntryDocument options) d >>= fun u =>
      readPending loader (loader.size + 2) ⟨[d.filename, entry], [(d, u)]⟩) :=
    (readWith_makes d (readEntryDocument_makes options)).bind fun u => readPending_makes loader _
  obtain ⟨changes, happly, hchanges⟩ := hmakes started v after hread
  exact ⟨_, changes, hspec ▸ happly, hchanges⟩

/-- **Every model of a spec that was built was read.** -/
theorem modelRead_of_build {loader : Loader} {options : Options} {entry : String} {s : Spec}
    (h : (build loader options entry).2 = .ok s) {m : Model} (hm : s.IsDeclared m) : ModelRead m := by
  obtain ⟨file, changes, happly, hchanges⟩ := changes_addRead h
  unfold Spec.IsDeclared at hm
  rw [Spec.applyAll_arena happly] at hm
  have hadded : m ∈ (changes.filterMap Change.declared?).map Declared.model := hm
  obtain ⟨d, hd, rfl⟩ := List.mem_map.1 hadded
  exact (hchanges _ (Change.mem_declared.1 hd)).model _ _ rfl

/-- **Every operation of a spec that was built was read.** -/
theorem operationRead_of_build {loader : Loader} {options : Options} {entry : String} {s : Spec}
    (h : (build loader options entry).2 = .ok s) : ∀ o ∈ s.operations, OperationRead o := by
  obtain ⟨file, changes, happly, hchanges⟩ := changes_addRead h
  intro o ho
  rw [Spec.applyAll_operations happly] at ho
  obtain ⟨c, hc, hadds⟩ := List.mem_filterMap.1 ho
  exact (hchanges c hc).operation o (Change.operation?_eq_some.1 hadds)

end Build

end OpenApi
