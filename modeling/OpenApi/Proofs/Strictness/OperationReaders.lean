/-
  OpenApi.Proofs.Strictness.OperationReaders — reading operations of a document and of the trimmed one.
-/
import OpenApi.Build.Operations
import OpenApi.Proofs.Strictness.ModelReaders

namespace OpenApi.Build

open Trim (Follows)

variable {T : Trim} {m m' : Mapping}

/-! ## §1. Contents. -/

theorem nameObject_follows (h : T.Cuts m m') (properties : List Property) (name contentType : String) :
    T.Follows (nameObject properties name contentType m) (nameObject properties name contentType m') Eq
      True := by
  -- every branch that goes on ends in recording the reference
  have hrecord : T.Follows
      (do
        Building.addReference (SchemaRef.toModel m.filename name)
        pure (SchemaRef.toModel m.filename name))
      (do
        Building.addReference (SchemaRef.toModel m'.filename name)
        pure (SchemaRef.toModel m'.filename name)) Eq True := by
    rw [h.file, h.file']
    exact (Follows.addReference (.inr ⟨name, rfl⟩)).bind fun _ _ _ => .pure rfl trivial
  unfold nameObject
  refine Follows.spec.bind ?_
  rintro s _ rfl
  split
  next =>
    split
    next => exact hrecord
    next => exact (Follows.throw (R := fun _ _ => True) (F := True)).bind fun _ _ _ => hrecord
  next => exact (Follows.throw (R := fun _ _ => True) (F := True)).bind fun _ _ _ => hrecord
  next =>
    refine (Follows.string h "description").bind fun description description' hdescription => ?_
    refine Follows.report.bind fun _ _ _ => ?_
    rw [hdescription.same]
    refine Follows.bind (F := True) (R := fun _ _ => True) ?_ fun _ _ _ => hrecord
    rw [h.file, h.file']
    exact .update fun s t hf => ⟨.model T.file _, hf, rfl⟩

theorem readContent_follows (h : T.Cuts m m') (required : Bool) (modelName declaredType : String) :
    T.Follows (readContent required modelName declaredType m) (readContent required modelName declaredType m')
      Eq True := by
  unfold readContent
  refine (Follows.ignore h _).bind fun _ _ _ => ?_
  refine (Follows.mapping h "schema").bind fun found found' hfound => ?_
  cases hfound with
  | missing hl hl' =>
    rw [hl, hl']
    exact Follows.report.bind fun _ _ _ => .pure rfl trivial
  | present hl hl' hschema _ =>
    rw [hl, hl']
    refine (readSchema_follows hschema _).bind ?_
    rintro schema _ rfl
    dsimp only
    split
    next properties =>
      split
      next => exact .pure rfl trivial
      next =>
        refine (nameObject_follows hschema _ _ _).bind ?_
        rintro r _ rfl
        exact .pure rfl trivial
    next => exact .pure rfl trivial

theorem readContents_follows (h : T.Cuts m m') (required : Bool) (modelName : String) :
    T.Follows (readContents required modelName m) (readContents required modelName m') Eq True := by
  unfold readContents
  refine (Follows.mappingEntries h).bind fun entries entries' hentries => ?_
  refine (Follows.mapM_eq ?_ hentries).bind ?_
  · rintro ⟨contentType, c⟩ ⟨_, c'⟩ ⟨rfl, hc⟩
    exact readContent_follows hc required modelName contentType
  rintro contents _ rfl
  exact .pure rfl trivial

theorem readRequestBody_follows (h : T.Cuts m m') (typeName : String) :
    T.Follows (readRequestBody typeName m) (readRequestBody typeName m') Eq True := by
  unfold readRequestBody
  refine Follows.ite_containsKey h (fun _ => .throw) fun _ => ?_
  refine (Follows.ignore h _).bind fun _ _ _ => ?_
  refine (Follows.boolean h "required").bind fun required required' hrequired => ?_
  refine (Follows.mapping h "content").bind fun found found' hfound => ?_
  refine (Follows.required hfound).bind ?_
  rintro content content' ⟨hcontent, -⟩
  rw [hrequired.getD]
  exact readContents_follows hcontent _ _

theorem readResponse_follows {responses responses' : Mapping} (h : T.Cuts m m') (typeName key : String) :
    T.Follows (readResponse typeName responses key m) (readResponse typeName responses' key m') Eq True := by
  unfold readResponse
  split
  next => exact .throw
  next status _ =>
    refine Follows.ite_containsKey h (fun _ => .throw) fun _ => ?_
    refine (Follows.ignore h _).bind fun _ _ _ => ?_
    refine (Follows.mapping h "content").bind fun found found' hfound => ?_
    refine (Follows.optionally hfound.outcome (fun c c' hc => readContents_follows hc _ _) rfl
      trivial).bind ?_
    rintro contents _ rfl
    refine (Follows.string h "description").bind fun description description' hdescription => ?_
    exact .pure (by rw [hdescription.same]) trivial

theorem readResponses_follows (h : T.Cuts m m') (typeName : String) :
    T.Follows (readResponses typeName m) (readResponses typeName m') Eq True := by
  unfold readResponses
  refine (Follows.mappingEntries h).bind fun entries entries' hentries => Follows.mapM_eq ?_ hentries
  rintro ⟨key, c⟩ ⟨_, c'⟩ ⟨rfl, hc⟩
  exact readResponse_follows hc typeName key

/-! ## §2. Security. -/

theorem readEntry_follows (h : T.Cuts m m') : T.Follows (readEntry m) (readEntry m') Eq True := by
  unfold readEntry
  refine (Follows.mapM_keys h fun scheme => ?_).mono (fun _ _ heq => List.forall₂_eq_eq_eq ▸ heq) id
  refine (Follows.sequence h scheme).bind_first fun found found' hfound => ?_
  refine (Follows.required hfound).bind ?_
  rintro scopes scopes' ⟨hscopes, -⟩
  refine (Follows.texts hscopes).bind ?_
  rintro texts _ rfl
  exact .pure rfl trivial

theorem readRequirements_follows {security security' : Sequence} (h : T.CutsSequence security security') :
    T.Follows (readRequirements security) (readRequirements security') Eq True := by
  unfold readRequirements
  refine (Follows.mappings h).bind fun ms ms' hms => ?_
  refine (Follows.mapM_eq (fun c c' hc => readEntry_follows hc) hms).bind ?_
  rintro entries _ rfl
  exact .pure rfl trivial

theorem readScheme_follows (h : T.Cuts m m') (key : String) :
    T.Follows (readScheme key m) (readScheme key m') Eq True := by
  unfold readScheme
  refine (Follows.ignore h _).bind fun _ _ _ => ?_
  refine (Follows.string h "type").bind fun found found' hfound => (Follows.required hfound).bind ?_
  rintro schemeType _ ⟨rfl, -⟩
  refine (Follows.string h "name").bind fun name name' hname => ?_
  refine (Follows.oneOf h "in").bind fun location location' hlocation => ?_
  refine (Follows.string h "scheme").bind fun scheme scheme' hscheme => ?_
  refine (Follows.string h "bearerFormat").bind fun bearer bearer' hbearer => ?_
  exact .pure (by rw [hname.same, hlocation.same, hscheme.same, hbearer.same]) trivial

theorem declareScheme_follows (h : T.Cuts m m') (key : String) :
    T.Follows (declareScheme key m) (declareScheme key m') (fun _ _ => True) True := by
  unfold declareScheme
  refine (readScheme_follows h key).bind ?_
  rintro scheme _ rfl
  exact Follows.report.bind fun _ _ _ => .update fun s t hf => ⟨.securityScheme scheme, hf, trivial⟩

theorem readSchemes_follows (h : T.Cuts m m') :
    T.Follows (readSchemes m) (readSchemes m') (fun _ _ => True) True := by
  unfold readSchemes
  refine (Follows.mappingEntries h).bind fun entries entries' hentries => Follows.forM ?_ hentries
  rintro ⟨key, c⟩ ⟨_, c'⟩ ⟨rfl, hc⟩
  exact declareScheme_follows hc key

/-! ## §3. Parameters. -/

theorem readParameter_follows (h : T.Cuts m m') (typeName : Option String) :
    T.Follows (readParameter typeName m) (readParameter typeName m') Eq True := by
  unfold readParameter
  refine Follows.ite_containsKey h (fun _ => .throw) fun _ => ?_
  split
  next => exact .throw
  next hschema =>
    -- if there is content, there is a schema as well, which is read and stays
    refine Follows.congr_right (G := T.Keeps m "schema") ?_ fun hkeep => by
      rw [if_neg]
      intro hcontent
      simp only [Bool.and_eq_true, Bool.not_eq_true', h.containsKey_kept hkeep] at hcontent hschema
      exact hschema ⟨h.containsKey_of_cut hcontent.1, hcontent.2⟩
    refine Follows.showing (F := T.Keeps m "schema") ?_ fun hkeep => ⟨trivial, hkeep⟩
    refine (Follows.ignore h _).bind fun _ _ _ => ?_
    refine (Follows.string h "name").bind fun found found' hfound => (Follows.required hfound).bind ?_
    rintro name _ ⟨rfl, -⟩
    refine (Follows.oneOf h "in").bind fun found found' hfound => (Follows.required hfound).bind ?_
    rintro location _ ⟨rfl, -⟩
    refine (Follows.mapping h "schema").bind_first fun found found' hfound =>
      (Follows.required hfound).bind ?_
    rintro node node' ⟨hnode, -⟩
    refine (readSchema_follows hnode _).bind ?_
    rintro schema _ rfl
    refine (Follows.string h "description").bind fun description description' hdescription => ?_
    refine (Follows.boolean h "required").bind fun required required' hrequired => ?_
    refine (Follows.oneOf h "style").bind fun style style' hstyle => ?_
    refine (Follows.boolean h "explode").bind fun explode explode' hexplode => ?_
    exact .pure (by rw [hdescription.same, hrequired.getD, hstyle.same, hexplode.getD]) trivial

theorem readParameters_follows (h : T.Cuts m m') (typeName : Option String) :
    T.Follows (readParameters typeName m) (readParameters typeName m') Eq True := by
  unfold readParameters
  refine (Follows.sequence h "parameters").bind fun found found' hfound => ?_
  cases hfound with
  | missing hl hl' =>
    rw [hl, hl']
    exact .pure rfl trivial
  | present hl hl' hparameters _ =>
    rw [hl, hl']
    refine (Follows.mappings hparameters).bind fun ms ms' hms => ?_
    exact Follows.mapM_eq (Q := T.Cuts) (fun c c' hc => readParameter_follows hc typeName) hms

/-! ## §4. Operations. -/

theorem readTags_follows (h : T.Cuts m m') (defaultTag : String) :
    T.Follows (readTags defaultTag m) (readTags defaultTag m') Eq True := by
  unfold readTags
  refine (readTexts_follows h "tags").bind ?_
  rintro tags _ rfl
  split
  next => exact .pure rfl trivial
  next =>
    refine Follows.foldlM (Q := Eq) ?_ (List.forall₂_eq_eq_eq ▸ rfl) []
    rintro tags tag _ rfl
    unfold addTag
    split
    next => exact Follows.report.bind fun _ _ _ => .pure rfl trivial
    next => exact .pure rfl trivial

/-- **An operation of the trimmed document is read like that of the document.** -/
theorem readOperation_follows (h : T.Cuts m m') (defaults : Defaults) (path : String)
    (common : List Parameter) (method : HttpMethod) :
    T.Follows (readOperation defaults path common method m) (readOperation defaults path common method m') Eq
      True := by
  unfold readOperation
  -- one step for each field, in the order in which the reader asks for them
  refine (Follows.ignore h _).bind fun _ _ _ => ?_
  refine (Follows.string h "operationId").bind fun id id' hid => ?_
  rw [hid.getD]
  refine (Follows.string h "summary").bind fun summary summary' hsummary => ?_
  refine (Follows.string h "description").bind fun description description' hdescription => ?_
  refine (readTags_follows h _).bind ?_
  rintro tags _ rfl
  refine (readParameters_follows h _).bind ?_
  rintro own _ rfl
  refine (Follows.mapping h "requestBody").bind fun body body' hbody => ?_
  refine (Follows.optionally hbody.outcome (fun c c' hc => readRequestBody_follows hc _) rfl trivial).bind ?_
  rintro requestBodies _ rfl
  refine (Follows.mapping h "responses").bind fun found found' hfound => ?_
  refine (Follows.optionally hfound.outcome (fun c c' hc => readResponses_follows hc _) rfl trivial).bind ?_
  rintro responses _ rfl
  refine (Follows.sequence h "security").bind fun list list' hlist => ?_
  refine (Follows.optionally hlist.outcome (fun s s' hs => readRequirements_follows hs) rfl trivial).bind ?_
  rintro security _ rfl
  exact .pure (by rw [hsummary.same, hdescription.same]) trivial

/-! ## §5. Paths. -/

theorem readMethod_follows (h : T.Cuts m m') (defaults : Defaults) (path : String)
    (common : List Parameter) (key : String) :
    T.Follows (readMethod defaults path common m key) (readMethod defaults path common m' key)
      (fun _ _ => True) (T.Keeps m key) := by
  unfold readMethod
  split
  next => exact .throw
  next method _ =>
    refine (Follows.mapping h key).bind_first fun found found' hfound => (Follows.required hfound).bind ?_
    rintro c c' ⟨hc, -⟩
    refine (readOperation_follows hc defaults path common method).bind ?_
    rintro operation _ rfl
    exact Follows.report.bind fun _ _ _ => .update fun s t hf => ⟨.operation operation, hf, trivial⟩

theorem readItem_follows (h : T.Cuts m m') (defaults : Defaults) (path : String) :
    T.Follows (readItem defaults path m) (readItem defaults path m') (fun _ _ => True) True := by
  unfold readItem
  refine (Follows.ignore h _).bind fun _ _ _ => (readParameters_follows h none).bind ?_
  rintro common _ rfl
  exact Follows.forM_keys h _ fun key => readMethod_follows h defaults path common key

theorem readPaths_follows (h : T.Cuts m m') (defaults : Defaults) :
    T.Follows (readPaths defaults m) (readPaths defaults m') (fun _ _ => True) True := by
  unfold readPaths
  refine (Follows.mappingEntries h).bind fun entries entries' hentries => Follows.forM ?_ hentries
  rintro ⟨path, c⟩ ⟨_, c'⟩ ⟨rfl, hc⟩
  exact readItem_follows hc defaults path

end OpenApi.Build
