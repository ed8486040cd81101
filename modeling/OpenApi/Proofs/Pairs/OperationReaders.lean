/-
  OpenApi.Proofs.Pairs.OperationReaders — reading operations that belong together.
-/
import OpenApi.Build.Operations
import OpenApi.Proofs.Pairs.SchemaReaders

namespace OpenApi.Build

open Pairing (Matches Pair)

variable {P : Pairing} {r : Role} {m m' : Mapping}

/-! ## §1. Contents. -/

theorem nameObject_matches (h : P.Pair r m m') (properties : List Property) (name contentType : String) :
    P.Matches Eq (nameObject properties name contentType m) (nameObject properties name contentType m') := by
  have hrecord : P.Matches Eq
      (do
        Building.addReference (SchemaRef.toModel m.filename name)
        pure (SchemaRef.toModel m.filename name))
      (do
        Building.addReference (SchemaRef.toModel m'.filename name)
        pure (SchemaRef.toModel m'.filename name)) := by
    rw [h.filename]
    exact (Matches.addReference _).bind fun _ _ _ => .pure rfl
  -- the name is taken by another shape: both steps fail before anything is recorded
  have hother : ∀ what, P.Matches Eq (throw (m.unsupported what) : Building Unit) (throw (m'.unsupported what)) :=
    fun what => .throw (h.unsupported what)
  unfold nameObject
  apply Matches.spec.bind
  rintro spec _ rfl
  split
  next =>
    split
    next => exact hrecord
    next => exact (hother _).bind fun _ _ _ => hrecord
  next => exact (hother _).bind fun _ _ _ => hrecord
  next =>
    refine (h.string (.inr rfl)).lift.bind fun description description' hdescription => ?_
    refine (Matches.report _ _).bind fun _ _ _ => ?_
    refine Mirrors.bind (R := Eq) ?_ fun _ _ _ => hrecord
    rw [hdescription.same, h.filename]
    exact Matches.update _

theorem readContent_matches (h : P.Pair .mediaType m m') (required : Bool) (modelName declaredType : String) :
    P.Matches Eq (readContent required modelName declaredType m) (readContent required modelName declaredType m') := by
  unfold readContent
  refine (h.ignore _ rfl).lift.bind fun _ _ _ => (h.mapping (.inr rfl)).lift.bind fun found found' hfound => ?_
  obtain ⟨node, node', hl, hl', hnode⟩ | ⟨hl, hl'⟩ := hfound.cases
  · rw [hl, hl']
    apply (readSchema_matches hnode _).bind
    rintro schema _ rfl
    dsimp only
    split
    -- an object is promoted on both sides, since the schemas read are the same
    next properties =>
      split
      next => exact .pure rfl
      next =>
        apply (nameObject_matches hnode _ _ _).bind
        rintro target _ rfl
        exact .pure rfl
    next => exact .pure rfl
  · rw [hl, hl']
    exact (Matches.report _ _).bind fun _ _ _ => .pure rfl

theorem readContents_matches (required : Bool) (modelName : String) (m m' : Mapping)
    (h : P.Pair (.table .mediaType) m m') :
    P.Matches Eq (readContents required modelName m) (readContents required modelName m') := by
  unfold readContents
  refine h.mappingEntries.lift.bind fun entries entries' hentries => ?_
  refine (Mirrors.mapM_eq (Q := Pair.SameEntry P .mediaType) ?_ hentries).bind ?_
  · rintro ⟨contentType, c⟩ ⟨_, c'⟩ ⟨rfl, hc⟩
    exact readContent_matches hc required modelName contentType
  rintro contents _ rfl
  exact .pure rfl

theorem readRequestBody_matches (typeName : String) (m m' : Mapping) (h : P.Pair .requestBody m m') :
    P.Matches Eq (readRequestBody typeName m) (readRequestBody typeName m') := by
  unfold readRequestBody
  rw [h.containsKey List.mem_cons_self]
  split
  next => exact .throw (h.unsupportedAt _ _)
  next =>
    refine (h.ignore _ rfl).lift.bind fun _ _ _ => ?_
    refine (h.boolean (.inr rfl)).lift.bind fun required required' hrequired => ?_
    rw [hrequired.getD]
    exact (h.mapping (.inr rfl)).bind_required (readContents_matches _ _)

theorem readResponse_matches {responses responses' : Mapping} (hresponses : P.Pair r responses responses')
    (h : P.Pair .response m m') (typeName key : String) :
    P.Matches Eq (readResponse typeName responses key m) (readResponse typeName responses' key m') := by
  unfold readResponse
  split
  next => exact .throw (hresponses.invalidValueAt _ _)
  next status _ =>
    rw [h.containsKey List.mem_cons_self]
    split
    next => exact .throw (h.unsupportedAt _ _)
    next =>
      refine (h.ignore _ rfl).lift.bind fun _ _ _ => (h.mapping (.inr rfl)).lift.bind fun found found' hfound => ?_
      apply (Mirrors.optionally hfound.optional (readContents_matches _ _) rfl).bind
      rintro contents _ rfl
      refine (h.string (.inr rfl)).lift.bind fun description description' hdescription => ?_
      exact .pure (by rw [hdescription.same])

theorem readResponses_matches (typeName : String) (m m' : Mapping) (h : P.Pair (.table .response) m m') :
    P.Matches Eq (readResponses typeName m) (readResponses typeName m') := by
  unfold readResponses
  refine h.mappingEntries.lift.bind fun entries entries' hentries => Mirrors.mapM_eq ?_ hentries
  rintro ⟨key, c⟩ ⟨_, c'⟩ ⟨rfl, hc⟩
  exact readResponse_matches h hc typeName key

/-! ## §2. Security. -/

theorem readEntry_matches (m m' : Mapping) (h : P.Pair (.table r) m m') :
    P.Matches Eq (readEntry m) (readEntry m') := by
  unfold readEntry
  rw [h.keys rfl]
  refine Mirrors.mapM_eq (Q := Eq) ?_ (List.forall₂_refl _)
  rintro scheme _ rfl
  apply (h.sequence (.inl rfl)).bind_required
  intro scopes scopes' hscopes
  apply (Mirrors.ofExcept hscopes.texts).bind
  rintro texts _ rfl
  exact .pure rfl

theorem readRequirements_matches (security security' : Sequence) (h : P.Rows (.table r) security security') :
    P.Matches Eq (readRequirements security) (readRequirements security') := by
  unfold readRequirements
  apply (Mirrors.ofExcept h.mappings).bind
  intro ms ms' hms
  apply (Mirrors.mapM_eq readEntry_matches hms).bind
  rintro entries _ rfl
  exact .pure rfl

theorem readScheme_matches (h : P.Pair r m m') (key : String) :
    P.Matches Eq (readScheme key m) (readScheme key m') := by
  unfold readScheme
  refine (h.ignore _ rfl).lift.bind fun _ _ _ => ?_
  apply (h.string (.inr rfl)).bind_required
  rintro schemeType _ rfl
  refine (h.string (.inr rfl)).lift.bind fun name name' hname => ?_
  refine (h.oneOf (.inr rfl)).lift.bind fun location location' hlocation => ?_
  refine (h.string (.inr rfl)).lift.bind fun scheme scheme' hscheme => ?_
  refine (h.string (.inr rfl)).lift.bind fun bearer bearer' hbearer => ?_
  exact .pure (by rw [hname.same, hlocation.same, hscheme.same, hbearer.same])

theorem declareScheme_matches (h : P.Pair r m m') (key : String) :
    P.Matches Eq (declareScheme key m) (declareScheme key m') := by
  unfold declareScheme
  apply (readScheme_matches h key).bind
  rintro scheme _ rfl
  exact (Matches.report _ _).bind fun _ _ _ => Matches.update _

theorem readSchemes_matches (m m' : Mapping) (h : P.Pair (.table r) m m') :
    P.Matches Eq (readSchemes m) (readSchemes m') := by
  unfold readSchemes
  refine h.mappingEntries.lift.bind fun entries entries' hentries => Mirrors.forM ?_ hentries
  rintro ⟨key, c⟩ ⟨_, c'⟩ ⟨rfl, hc⟩
  exact declareScheme_matches hc key

/-! ## §3. Parameters. -/

theorem readParameter_matches (typeName : Option String) (m m' : Mapping) (h : P.Pair .parameter m m') :
    P.Matches Eq (readParameter typeName m) (readParameter typeName m') := by
  -- the three keys that decide the branch are among those that a pair agrees on
  have hdeciding : ∀ key ∈ ["$ref", "content", "schema"], m'.containsKey key = m.containsKey key :=
    fun key hkey => h.containsKey hkey
  unfold readParameter
  rw [hdeciding "$ref" (by simp), hdeciding "content" (by simp), hdeciding "schema" (by simp)]
  split
  next => exact .throw (h.unsupportedAt _ _)
  split
  next => exact .throw (h.unsupportedAt _ _)
  next =>
    refine (h.ignore _ rfl).lift.bind fun _ _ _ => ?_
    apply (h.string (.inr rfl)).bind_required
    rintro name _ rfl
    apply (h.oneOf (.inr rfl)).bind_required
    rintro location _ rfl
    apply (h.mapping (.inr rfl)).bind_required
    intro node node' hnode
    apply (readSchema_matches hnode _).bind
    rintro schema _ rfl
    refine (h.string (.inr rfl)).lift.bind fun description description' hdescription => ?_
    refine (h.boolean (.inr rfl)).lift.bind fun required required' hrequired => ?_
    refine (h.oneOf (.inr rfl)).lift.bind fun style style' hstyle => ?_
    refine (h.boolean (.inr rfl)).lift.bind fun explode explode' hexplode => ?_
    exact .pure (by rw [hdescription.same, hrequired.getD, hstyle.same, hexplode.getD])

theorem readParameters_matches (h : P.Pair r m m') (hparameters : r.under "parameters" = .parameter)
    (typeName : Option String) : P.Matches Eq (readParameters typeName m) (readParameters typeName m') := by
  unfold readParameters
  refine (h.sequence (.inr rfl)).lift.bind fun found found' hfound => ?_
  rw [hparameters] at hfound
  obtain ⟨parameters, parameters', hl, hl', hrows⟩ | ⟨hl, hl'⟩ := hfound.cases
  · rw [hl, hl']
    apply (Mirrors.ofExcept hrows.mappings).bind
    intro ms ms' hms
    exact Mirrors.mapM_eq (readParameter_matches typeName) hms
  · rw [hl, hl']
    exact .pure rfl

/-! ## §4. Operations. -/

theorem readTags_matches (h : P.Pair r m m') (defaultTag : String) :
    P.Matches Eq (readTags defaultTag m) (readTags defaultTag m') := by
  unfold readTags
  apply (readTexts_matches h (.inr rfl)).bind
  rintro tags _ rfl
  split
  next => exact .pure rfl
  next =>
    refine Mirrors.foldlM (Q := Eq) ?_ (List.forall₂_refl _) [] [] rfl
    rintro tags _ tag _ rfl rfl
    unfold addTag
    split
    next => exact (Matches.report _ _).bind fun _ _ _ => .pure rfl
    next => exact .pure rfl

theorem readOperation_matches (h : P.Pair .operation m m') (defaults : Defaults) (path : String)
    (common : List Parameter) (method : HttpMethod) :
    P.Matches Eq (readOperation defaults path common method m) (readOperation defaults path common method m') := by
  unfold readOperation
  -- one step for each field, in the order in which the reader asks for them
  refine (h.ignore _ rfl).lift.bind fun _ _ _ => ?_
  refine (h.string (.inr rfl)).lift.bind fun id id' hid => ?_
  rw [hid.getD]
  refine (h.string (.inr rfl)).lift.bind fun summary summary' hsummary => ?_
  refine (h.string (.inr rfl)).lift.bind fun description description' hdescription => ?_
  apply (readTags_matches h _).bind
  rintro tags _ rfl
  apply (readParameters_matches h rfl _).bind
  rintro own _ rfl
  refine (h.mapping (.inr rfl)).lift.bind fun body body' hbody => ?_
  apply (Mirrors.optionally hbody.optional (readRequestBody_matches _) rfl).bind
  rintro requestBodies _ rfl
  refine (h.mapping (.inr rfl)).lift.bind fun found found' hfound => ?_
  apply (Mirrors.optionally hfound.optional (readResponses_matches _) rfl).bind
  rintro responses _ rfl
  refine (h.sequence (.inr rfl)).lift.bind fun list list' hlist => ?_
  apply (Mirrors.optionally hlist.optional readRequirements_matches rfl).bind
  rintro security _ rfl
  exact .pure (by rw [hsummary.same, hdescription.same])

/-! ## §5. Paths. -/

/-- The name of a method is no extension, and the value under it is an operation. -/
theorem method_spelled {key : String} {method : HttpMethod}
    (h : (Spelled.ofText? key : Option HttpMethod) = some method) :
    Usage.isExtension key = false ∧ Role.under .pathItem key = .operation := by
  have hkey : Spelled.spelling method = key := by simpa using List.find?_some h
  subst hkey
  cases method <;> exact ⟨rfl, rfl⟩

theorem readMethod_matches (h : P.Pair .pathItem m m') (defaults : Defaults) (path : String) (common : List Parameter)
    (key : String) :
    P.Matches Eq (readMethod defaults path common m key) (readMethod defaults path common m' key) := by
  unfold readMethod
  split
  next => exact .throw (h.unsupportedAt _ _)
  next method hmethod =>
    obtain ⟨hkey, hrole⟩ := method_spelled hmethod
    apply (h.mapping (.inr hkey)).bind_required
    intro c c' hc
    rw [hrole] at hc
    apply (readOperation_matches hc defaults path common method).bind
    rintro operation _ rfl
    exact (Matches.report _ _).bind fun _ _ _ => Matches.update _

theorem readItem_matches (h : P.Pair .pathItem m m') (defaults : Defaults) (path : String) :
    P.Matches Eq (readItem defaults path m) (readItem defaults path m') := by
  unfold readItem
  refine (h.ignore _ rfl).lift.bind fun _ _ _ => (readParameters_matches h rfl none).bind ?_
  rintro common _ rfl
  rw [h.methods]
  refine Mirrors.forM (Q := Eq) ?_ (List.forall₂_refl _)
  rintro key _ rfl
  exact readMethod_matches h defaults path common key

theorem readPaths_matches (defaults : Defaults) (m m' : Mapping) (h : P.Pair (.table .pathItem) m m') :
    P.Matches Eq (readPaths defaults m) (readPaths defaults m') := by
  unfold readPaths
  refine h.mappingEntries.lift.bind fun entries entries' hentries => Mirrors.forM ?_ hentries
  rintro ⟨path, c⟩ ⟨_, c'⟩ ⟨rfl, hc⟩
  exact readItem_matches hc defaults path

end OpenApi.Build
