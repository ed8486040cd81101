/-
  OpenApi.Proofs.Bodies.Shapes — the shapes of the bodies of a built spec.

  In a spec that was built no content has an object as its schema, unless it is a form: each such object of the entry
  document became a model, and the content refers to it. The reference resolves to that model wherever the files that
  declare models have no number sign in their names; and a build that comes to an object whose name is taken by another
  model fails (`promoted_of_build`). With a number sign, two places may be spelled alike, and the reference leads to the
  model that was declared last (`promoted_elsewhere`).
-/
import OpenApi.Proofs.Bodies.Promotion
import OpenApi.Proofs.Build.Naming
import OpenApi.Proofs.Build.Additions
import OpenApi.Proofs.Build.Stepping
import OpenApi.Proofs.Build.Survey
import OpenApi.Proofs.Spec.Numbers

namespace OpenApi

/-! ## §1. Contents. -/

/-- No content has an object as its schema, unless it is a form. -/
def Contents.NamesObjects (contents : Contents) : Prop :=
  ∀ e ∈ contents, e.2.isForm = false → ∀ properties, e.2.schema ≠ .object properties

/-- No content of the bodies has an object as its schema, unless it is a form. -/
structure Operation.NamesObjects (o : Operation) : Prop where
  requestBodies : Contents.NamesObjects o.requestBodies
  responses : ∀ r ∈ o.responses, Contents.NamesObjects r.contents

theorem Contents.namesObjects_nil : Contents.NamesObjects [] := fun _ he => absurd he List.not_mem_nil

namespace Build

open Building (Gives)

theorem readContent_shape (required : Bool) (modelName declaredType : String) (media : Mapping) :
    (readContent required modelName declaredType media).Gives fun found =>
      ∀ c, found = some c → c.isForm = false → ∀ properties, c.schema ≠ .object properties := by
  unfold readContent
  refine .after fun _ => .after fun l => ?_
  split
  next => exact .after fun _ => .pure fun _ => nofun
  next m _ =>
    refine .after fun schema => ?_
    dsimp only
    split
    -- an object survives only in a form; in any other entry the reference to its model stands in its place
    next properties =>
      split
      next hform =>
        refine .pure fun c hc hplain => ?_
        rw [← Option.some.inj hc, hform] at hplain
        exact absurd hplain nofun
      next =>
        refine .after fun r => .pure fun c hc _ properties' hobject => ?_
        rw [← Option.some.inj hc] at hobject
        exact absurd hobject nofun
    next hother =>
      refine .pure fun c hc _ properties hobject => ?_
      rw [← Option.some.inj hc] at hobject
      exact hother properties hobject

theorem readContents_shape (required : Bool) (modelName : String) (content : Mapping) :
    (readContents required modelName content).Gives Contents.NamesObjects := by
  unfold readContents
  refine .after fun entries => (Gives.mapM fun e => readContent_shape _ _ _ _).bind fun found hfound => .pure ?_
  -- each content that is kept was read from some entry
  intro e he
  obtain he | he := Keyed.mem_putAll he
  · exact absurd he List.not_mem_nil
  · obtain ⟨c, hc, rfl⟩ := List.mem_map.1 he
    obtain ⟨o, ho, rfl⟩ := List.mem_filterMap.1 hc
    exact hfound _ ho c rfl

theorem readRequestBody_shape (typeName : String) (body : Mapping) :
    (readRequestBody typeName body).Gives Contents.NamesObjects := by
  unfold readRequestBody
  split
  next => exact .throw
  next => exact .after fun _ => .after fun _ => .after fun _ => .after fun _ => readContents_shape _ _ _

theorem readResponse_shape (typeName : String) (responses : Mapping) (key : String) (m : Mapping) :
    (readResponse typeName responses key m).Gives fun r => Contents.NamesObjects r.contents := by
  unfold readResponse
  split
  next => exact .throw
  split
  next => exact .throw
  next =>
    refine .after fun _ => .after fun _ => Gives.bind
      (.optionally Contents.namesObjects_nil (readContents_shape _ _) _) fun contents hcontents => ?_
    exact .after fun _ => .pure hcontents

/-- An operation that is read has no object as a body, unless it is a form. -/
theorem readOperation_shape (defaults : Defaults) (path : String) (common : List Parameter) (method : HttpMethod)
    (m : Mapping) : (readOperation defaults path common method m).Gives Operation.NamesObjects := by
  unfold readOperation
  refine .after fun _ => .after fun _ => .after fun _ => .after fun _ => .after fun tags => .after fun own => ?_
  refine .after fun _ => Gives.bind
    (.optionally Contents.namesObjects_nil (readRequestBody_shape _) _) fun bodies hbodies => ?_
  have hresponses : ∀ typeName responses, (readResponses typeName responses).Gives fun rs =>
      ∀ r ∈ rs, Contents.NamesObjects r.contents := fun typeName responses =>
    .after fun entries => .mapM fun e => readResponse_shape _ _ _ _
  refine .after fun _ => Gives.bind
    (.optionally (fun r hr => absurd hr List.not_mem_nil) (hresponses _) _) fun rs hrs => ?_
  exact .after fun _ => .after fun _ => .pure ⟨hbodies, hrs⟩

/-! ## §2. Models. -/

/-- A model that is declared in a plain file is what the reference to it leads to. -/
theorem getModel_toModel {s : Spec} (hs : s.Made) (hplain : s.FilesPlain) {d : Declared} (hd : d ∈ s.models) :
    s.getModel (.toModel d.file d.model.name) = .ok d.model := by
  obtain ⟨n, hn⟩ := List.mem_iff_getElem?.1 hd
  obtain ⟨hfile, hm⟩ := Spec.getElem?_models.1 hn
  exact (hs.inStep.modelsIndexed hs.namesDistinct hplain).resolved n _ _ hm hfile

/-- The content was read as a reference to the model of its name, which has the properties of its object. -/
structure Promoted (media : Mapping) (c : BodyContent) (g : GenericModel) (s : Spec) : Prop where
  node : media.node = c.media
  referred : ∃ required content, (readContent required c.modelName c.declaredType media).Passed (some content) s ∧
    content.schema = .ref (.toModel media.filename c.modelName)
  object : ObjectRead media c.modelName g s

/-- The object of a content that was read became a model. -/
theorem exists_promoted {d : Document} {c : BodyContent} {s : Spec} (h : ContentRead d c s)
    (hbecomes : c.media.becomesModel c.declaredType = true) : ∃ media g, media.document = d ∧ Promoted media c g s := by
  obtain ⟨media, required, found, hdocument, hnode, hpassed⟩ := h
  have hleft := hpassed.leaves (readContent_leaves required) fun found =>
    .forall fun _ => .exists fun content => .exists fun g =>
      .and (.const _) (.and (.const _) (ObjectRead.kept media c.modelName g))
  obtain ⟨content, g, hfound, href, hobject⟩ := hleft (hnode ▸ hbecomes)
  exact ⟨media, g, hdocument, hnode, ⟨required, content, hfound ▸ hpassed, href⟩, hobject⟩

theorem Promoted.kept (media : Mapping) (c : BodyContent) (g : GenericModel) : Spec.Kept (Promoted media c g) := by
  intro s t hgrows h
  obtain ⟨required, content, hpassed, href⟩ := h.referred
  exact ⟨h.node, ⟨required, content, Building.Passed.kept _ _ s t hgrows hpassed, href⟩,
    ObjectRead.kept _ _ _ s t hgrows h.object⟩

/-- The model that an object became is declared under its name. -/
theorem Promoted.declared {media : Mapping} {c : BodyContent} {g : GenericModel} {s : Spec} (hs : s.InStep)
    (h : Promoted media c g s) : ∃ d ∈ s.models, d.model = .generic g ∧ g.name = c.modelName := by
  obtain ⟨m, properties, -, -, -, hnamed, -⟩ := h.object
  obtain ⟨d, hd, hmodel⟩ := hs.isDeclared_iff.1 (Spec.isDeclared_of_modelNamed? hnamed)
  exact ⟨d, hd, hmodel, hs.name_of_modelNamed? hnamed⟩

/-! ## §3. Builds. -/

variable {loader : Loader} {options : Options} {entry : String} {s : Spec}

/-- Each object of the entry document that became a model is one of the built spec, which named schemas of that name
were read as too, and which the reference to it leads to. -/
theorem exists_promoted_of_build (h : (build loader options entry).2 = .ok s) :
    ∃ d, (loader.load entry).2 = .ok d ∧ ∀ c ∈ d.root.allContents, c.media.becomesModel c.declaredType = true →
      ∃ media g, media.document = d ∧ Promoted media c g s ∧
        (∀ e ∈ d.root.declaredSchemas, e.1 = c.modelName →
          ∃ m, m.document = d ∧ m.node = e.2 ∧ (readModel e.1 m).Passed (.generic g) s) ∧
        (loader.KeepsPlain → '#' ∉ s.entryFile.toList →
          s.getModel (.toModel d.filename c.modelName) = .ok (.generic g)) := by
  obtain ⟨v, after, hread, rfl, -⟩ := build_eq_ok.1 h
  obtain ⟨-, d, entered, hload, hschemas, hcontents, ⟨hentered, hfiles⟩, hgrows⟩ := survey_of_readAll hread
  have hmade : after.spec.Made := (recorded_of_readAll hread).1
  refine ⟨d, hload, fun c hc hbecomes => ?_⟩
  obtain ⟨media, g, hdocument, hpromoted⟩ := exists_promoted (hcontents c hc) hbecomes
  -- the model is one of the entry document, for when it was made there were no others
  obtain ⟨declared, hdeclared, hmodel, hname⟩ := hpromoted.declared hentered
  have hmem : declared ∈ after.spec.models := hgrows.models hentered.files hdeclared
  refine ⟨media, g, hdocument, Promoted.kept media c g _ _ hgrows hpromoted, fun e he hsame => ?_, ?_⟩
  · obtain ⟨m, model, hdocument', hnode, hpassed, hthere⟩ := SchemaRead.kept d e _ _ hgrows (hschemas e he)
    have hmodelname : model.name = e.1 := by
      obtain ⟨session, stopped, hrun, -⟩ := hpassed
      exact readModel_name e.1 m session model stopped hrun
    have hmodelthere : after.spec.IsDeclared model :=
      Spec.mem_arena_of_mem_models (hmade.inStep.mem_models hthere)
    have hgenericthere : after.spec.IsDeclared (.generic g) := hmodel ▸ Spec.mem_arena_of_mem_models hmem
    obtain rfl : model = .generic g := hmade.namesDistinct.eq_of_name_eq hmodelthere hgenericthere
      (hmodelname.trans (hsame.trans hname.symm))
    exact ⟨m, hdocument', hnode, hpassed⟩
  · intro hloader hentry
    have hget := getModel_toModel hmade (filesPlain_of_readAll hloader hread hentry) hmem
    rw [hfiles declared hdeclared, hmodel] at hget
    rw [← hname]
    exact hget

/-- **The bodies of a built spec keep their shapes.** No content has an object as its schema, unless it is a form.
Every content of the entry document that is such an object was read as a reference to the model of its name, which has
the properties of the object; a named schema of that name was read as the same model. From an entry document without
number sign in its name, the reference resolves to that model. An object whose name is taken by a model of another kind
or with other properties is refused, and so is every build that comes to it. -/
theorem promoted_of_build (h : (build loader options entry).2 = .ok s) :
    (∀ o ∈ s.operations, o.NamesObjects) ∧
    (∃ d, (loader.load entry).2 = .ok d ∧ ∀ c ∈ d.root.allContents, c.media.becomesModel c.declaredType = true →
      ∃ media g, media.document = d ∧ Promoted media c g s ∧
        (∀ e ∈ d.root.declaredSchemas, e.1 = c.modelName →
          ∃ m, m.document = d ∧ m.node = e.2 ∧ (readModel e.1 m).Passed (.generic g) s) ∧
        (loader.KeepsPlain → '#' ∉ s.entryFile.toList →
          s.getModel (.toModel d.filename c.modelName) = .ok (.generic g))) ∧
    ∀ (required : Bool) (media m : Mapping) (modelName declaredType : String) (properties : List Property)
      (session elsewhere : Session), media.Holds "schema" ("schema", m) →
      media.node.becomesModel declaredType = true →
      ((readSchema (.ofModel modelName) m).run.run elsewhere).1 = .ok (.object properties) →
      session.spec.Clashes modelName (owned modelName properties) →
      ∃ e, ((readContent required modelName declaredType media).run.run session).1 = .error e ∧
        e.errorClass = .unsupportedShape ∧
        ∀ (other : Loader) (others : Options) (first : String),
          (readContent required modelName declaredType media).StepOf session (buildSpec other others first)
            ⟨.none, .empty first, []⟩ → (build other others first).2 = .error e := by
  refine ⟨fun o ho => ?_, exists_promoted_of_build h, ?_⟩
  · obtain ⟨defaults, path, -, common, method, m, session, after, -, hrun⟩ := operationRead_of_build h o ho
    exact readOperation_shape defaults path common method m session o after hrun
  · intro required media m modelName declaredType properties session elsewhere hm hbecomes hread hclashes
    have hrefused := readContent_clashes hm hbecomes hread hclashes required
    exact ⟨_, hrefused, rfl, fun other others first hstep => hstep.error hrefused⟩

/-- In `Inline`, the object of the response is promoted. -/
theorem exists_content {id name : String}
    (h : ((Inline.document id).root.allContents.any fun c =>
      c.modelName = name && c.media.becomesModel c.declaredType) = true) :
    ∃ c ∈ (Inline.document id).root.allContents, c.modelName = name ∧ c.media.becomesModel c.declaredType = true := by
  obtain ⟨c, hc, hmodel⟩ := List.any_eq_true.1 h
  rw [Bool.and_eq_true, decide_eq_true_eq] at hmodel
  exact ⟨c, hc, hmodel⟩

/-- The response of `listPets` refers to a model with the properties of its object. -/
theorem promoted_of_listPets :
    ∃ s, (build (Inline.served "listPets") {} "api.yaml").2 = .ok s ∧ (∀ o ∈ s.operations, o.NamesObjects) ∧
      ∃ c ∈ (Inline.document "listPets").root.allContents, c.modelName = "ListPets200Response" ∧
        ∃ media g, Promoted media c g s ∧ s.getModel (.toModel "api.yaml" "ListPets200Response") = .ok (.generic g) := by
  obtain ⟨s, hbuild, hentry, -⟩ :=
    @Inline.exists_of_build "listPets" "ListPets200Response" "ListPets200Response" (by decide +kernel)
  obtain ⟨c, hc, hname, hbecomes⟩ := @exists_content "listPets" "ListPets200Response" (by decide +kernel)
  obtain ⟨hshapes, ⟨d, hload, hall⟩, -⟩ := promoted_of_build hbuild
  obtain rfl : Inline.document "listPets" = d := Except.ok.inj hload
  obtain ⟨media, g, -, hpromoted, -, hresolves⟩ := hall c hc hbecomes
  have hplain : '#' ∉ s.entryFile.toList := by
    rw [hentry]
    decide
  have hget := hresolves (Inline.keepsPlain_served "listPets") hplain
  rw [hname] at hget
  exact ⟨s, hbuild, hshapes, c, hc, hname, media, g, hpromoted, hget⟩

/-! ## §4. A name with a number sign. -/

namespace Marked

/-- The name of a document whose start is the name of another one. -/
def name : String := "a.yaml#/components/schemas/X.yaml"

/-- The response of the operation `x` becomes the model `X200Response`. -/
def document : Document := { Inline.document "x" with source := ⟨"", name⟩ }

/-- A named schema in a place that is spelled as that of the model. -/
def other : Document where
  source := ⟨"", "a.yaml"⟩
  format := .yaml
  root := Listing.members [("components", Listing.members [("schemas", Listing.members
    [("X.yaml#/components/schemas/X200Response", Listing.members [("enum", .sequence [.string "a", .string "b"])])])])]

/-- The loader that serves both documents. -/
def served : Loader := .memory [(name, .ok document), ("a.yaml", .ok other)]

end Marked

/-- The response of `x` refers to an enumeration of another document. -/
theorem promoted_elsewhere :
    ∃ s d, (build Marked.served {} Marked.name).2 = .ok s ∧ (Marked.served.load Marked.name).2 = .ok d ∧
      ∃ c ∈ d.root.allContents, c.media.becomesModel c.declaredType = true ∧
        s.operations.flatMap Operation.references = [.toModel d.filename c.modelName] ∧
        ∃ m, s.getModel (.toModel d.filename c.modelName) = .ok m ∧ m.kind = .enumeration := by
  obtain ⟨s, hbuild, htold⟩ := Outcome.exists_of_map (show ((build Marked.served {} Marked.name).2.map fun s =>
      (s.operations.flatMap Operation.references,
        (s.getModel (.toModel Marked.name "X200Response")).toOption.map Model.kind)).toOption =
      some ([.toModel Marked.name "X200Response"], some .enumeration) by decide +kernel)
  obtain ⟨c, hc, hname, hbecomes⟩ := @exists_content "x" "X200Response" (by decide +kernel)
  obtain ⟨hreferences, hkind⟩ := Prod.mk.inj htold
  -- the schema of another declaration already holds the name, so the reference leads to an enumeration and not to
  -- the body
  refine ⟨s, Marked.document, hbuild, rfl, c, hc, hbecomes, ?_, ?_⟩
  · rw [hname]
    exact hreferences
  · rw [hname]
    cases hget : s.getModel (.toModel Marked.name "X200Response") with
    | error e =>
      rw [hget] at hkind
      exact absurd hkind nofun
    | ok m =>
      rw [hget] at hkind
      exact ⟨m, hget, Option.some.inj hkind⟩

end Build

end OpenApi
