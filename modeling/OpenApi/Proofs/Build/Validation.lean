/-
  OpenApi.Proofs.Build.Validation — a validated spec answers every question.

  A build with validation checks that every recorded reference names a model and that the properties of every
  allOf model can be put together. Since every stored reference was recorded, no view of such a spec can fail:
  neither on a reference, nor on a cycle, a super model without properties or a property that is missing.
  Main statement: `viewsTotal_of_build`.
-/
import OpenApi.Proofs.Build.DocumentReaders
import OpenApi.Proofs.Visibility.Omission

namespace OpenApi

namespace Spec

variable {s : Spec}

/-! ## §1. Total views. -/

/-- No view of the spec fails: every stored reference was recorded and resolves, all that is inherited is
composable, and each question about a declared model or a stored schema has an answer. -/
structure ViewsTotal (s : Spec) : Prop where
  recorded : ∀ r, s.StoresReference r → s.knowsReference r = true ∧ s.Resolves r
  composable : ∀ a, s.IsDeclared (.allOf a) → s.Composable a
  allProperties : ∀ m, s.IsDeclared m → ∃ ps, s.allProperties m = .ok ps
  ownProperties : ∀ a, s.IsDeclared (.allOf a) → ∃ ps, s.ownProperties a = .ok ps
  superModels : ∀ a, s.IsDeclared (.allOf a) → ∃ supers, s.superModels a = .ok supers
  getProperty : ∀ m, s.IsDeclared m → ∀ name, ∃ found, s.getProperty m name = .ok found
  requiresNothing : ∀ m, s.IsDeclared m → ∃ answer, s.requiresNothing m = .ok answer
  omitted : ∀ v m, s.IsDeclared m → ∃ ps, s.omitted v m = .ok ps
  modelHas : ∀ v m, s.IsDeclared m → ∃ answer, s.modelHas v m = .ok answer
  schemaHas : ∀ v c, s.Stores c → ∃ answer, s.schemaHas v c = .ok answer

/-- Where all models flatten, what a model inherits from is composable. -/
theorem AllFlatten.composable (hf : s.AllFlatten) {m : Model} (hm : s.IsDeclared m) :
    ∀ a, s.Inherits m (.allOf a) → s.Composable a := by
  obtain ⟨ps, hps⟩ := hf m hm
  exact fun a ha => composable_of_allProperties hps ha

theorem exists_ownProperties (hs : s.NamesDistinct) (hf : s.AllFlatten) {a : AllOfModel}
    (ha : s.IsDeclared (.allOf a)) : ∃ ps, s.ownProperties a = .ok ps := by
  refine Outcome.exists_ok fun e he => ?_
  have hchain : ∀ b, Extends s (.allOf a) b → Chain.LeadsTo s [a.name] b := fun b hb =>
    (Chain.leadsTo_nil s _).enter ha List.not_mem_nil hb
  have hdepth : s.count < s.chainBound + [a.name].length := by
    unfold chainBound
    omega
  exact not_fault_of_composable (hf.composable ha) (fault_of_ownPropertiesIn hs hchain hdepth he)

theorem exists_superModels (hr : s.AllResolve) {a : AllOfModel} (ha : s.IsDeclared (.allOf a)) :
    ∃ supers, s.superModels a = .ok supers := by
  refine Outcome.exists_ok fun e he => ?_
  obtain ⟨r, hmem, herror⟩ := superModels_eq_error he
  obtain ⟨b, hok⟩ := hr r (storesReference_of_link ha hmem)
  rw [herror] at hok
  exact absurd hok (by simp)

theorem exists_getProperty (hs : s.NamesDistinct) (hf : s.AllFlatten) {m : Model}
    (hm : s.IsDeclared m) (name : String) : ∃ found, s.getProperty m name = .ok found := by
  obtain ⟨ps, hps⟩ := hf m hm
  exact exists_getProperty_of_allProperties hs hm hps name

theorem exists_requiresNothing (hf : s.AllFlatten) {m : Model} (hm : s.IsDeclared m) :
    ∃ answer, s.requiresNothing m = .ok answer := by
  obtain ⟨ps, hps⟩ := hf m hm
  refine ⟨ps.all fun p => !p.required, ?_⟩
  unfold requiresNothing
  rw [hps]
  rfl

/-- **Where all references were recorded and resolve, and all models flatten, no view fails.** -/
theorem viewsTotal (hs : s.Made) (hrecorded : s.Recorded) (hr : s.AllResolve) (hf : s.AllFlatten) :
    s.ViewsTotal where
  recorded r hstores := ⟨hrecorded r hstores, hr r hstores⟩
  composable a ha := hf.composable ha a .refl
  allProperties := hf
  ownProperties _ ha := exists_ownProperties hs.namesDistinct hf ha
  superModels _ ha := exists_superModels hr ha
  getProperty _ hm := exists_getProperty hs.namesDistinct hf hm
  requiresNothing _ hm := exists_requiresNothing hf hm
  omitted v m hm := by
    obtain ⟨ps, hps⟩ := hf m hm
    exact ⟨_, omitted_eq_ok hs.namesDistinct hr hf hm hps⟩
  modelHas v m hm := by
    obtain ⟨answer, hanswer, -⟩ := modelHas_reaches hs.namesDistinct hr hf hm v
    exact ⟨answer, hanswer⟩
  schemaHas v c hc := by
    obtain ⟨answer, hanswer, -⟩ := schemaHas_reaches hs.namesDistinct hr hf (hr.resolvesIn hc) v
    exact ⟨answer, hanswer⟩

/-! ## §2. Checks. -/

/-- If the check of references passes, every recorded reference resolves. -/
theorem resolves_of_validateReferences (hs : s.InStep) (h : s.validateReferences = .ok ()) {r : SchemaRef}
    (hr : s.knowsReference r = true) : s.Resolves r := by
  unfold validateReferences at h
  split at h
  next hnone =>
    have hsome : ¬ (s.numberAt? r.reference).isNone = true :=
      List.filter_eq_nil_iff.1 hnone _ (List.contains_iff_mem.1 hr)
    cases hn : s.numberAt? r.reference with
    | none => exact absurd (by rw [hn]; rfl) hsome
    | some n =>
      obtain ⟨d, hd, -⟩ := hs.placed _ n hn
      exact ⟨d.model, getModel_eq_ok.2 ⟨n, modelNumber_eq_ok.2 hn, (getElem?_models.1 hd).2⟩⟩
  next => exact absurd h (by simp)

/-- If the check of compositions passes, all models flatten. -/
theorem allFlatten_of_checkCompositions (h : s.checkCompositions = .ok ()) : s.AllFlatten := by
  intro m hm
  have hcheck := Outcome.forM_eq_ok h m hm
  cases m with
  | allOf a =>
    cases hps : s.allProperties (.allOf a) with
    | ok ps => exact ⟨ps, rfl⟩
    | error e =>
      simp only [hps] at hcheck
      exact absurd hcheck (by simp [Except.map])
  | generic _ | enumeration _ | oneOf _ | array _ => exact ⟨_, rfl⟩

end Spec

/-! ## §3. Builds. -/

namespace Build

/-- What a build gives is the spec that it read, and the checks of the options passed. -/
theorem build_ok {loader : Loader} {options : Options} {entry : String} {s : Spec}
    (h : (build loader options entry).2 = .ok s) :
    (s.Made ∧ s.Recorded) ∧ ∃ v, check options v s = .ok () := by
  obtain ⟨v, after, hread, rfl, hcheck⟩ := build_eq_ok.1 h
  exact ⟨recorded_of_readAll hread, v, hcheck⟩

/-- A check with validation checks references and compositions. -/
theorem check_validated {options : Options} {v : Visited} {s : Spec} (h : check options v s = .ok ())
    (hvalidate : options.validateReferences = true) :
    s.validateReferences = .ok () ∧ s.checkCompositions = .ok () := (check_eq_ok.1 h).1 hvalidate

/-- **No view of a spec that was built with validation fails**, whatever the documents say and wherever they
come from. -/
theorem viewsTotal_of_build {loader : Loader} {options : Options} {entry : String} {s : Spec}
    (hvalidate : options.validateReferences = true) (h : (build loader options entry).2 = .ok s) :
    s.ViewsTotal := by
  obtain ⟨⟨hmade, hrecorded⟩, v, hcheck⟩ := build_ok h
  obtain ⟨hreferences, hcompositions⟩ := check_validated hcheck hvalidate
  have hresolve : s.AllResolve := fun r hr =>
    Spec.resolves_of_validateReferences hmade.inStep hreferences (hrecorded r hr)
  exact Spec.viewsTotal hmade hrecorded hresolve (Spec.allFlatten_of_checkCompositions hcompositions)

/-! ## §4. A listing. -/

namespace Listing

/-- A mapping with texts as keys. -/
def members (entries : List (String × Node)) : Node :=
  .mapping (entries.map fun entry => (.ofText entry.1, entry.2))

/-- A reference to a schema of the same document. -/
def link (name : String) : Node := members [("$ref", .string (SchemaRef.anchor ++ name))]

/-- The schema `Node` extends `Entity`, requires what it inherits, and refers to itself. -/
def schemas : Node := members
  [("Entity", members [("properties", members
      [("id", members [("type", .string "string"), ("readOnly", .bool true)])])]),
    ("Node", members [("required", .sequence [.string "id"]), ("allOf", .sequence
      [link "Entity", members [("properties", members [("next", link "Node")])]])])]

/-- A response with an object that is declared in place. -/
def responses : Node := members [("200", members [("content", members [("application/json", members
  [("schema", members [("properties", members [("first", link "Node")])])])])])]

def document : Document where
  source := ⟨"", "api.yaml"⟩
  format := .yaml
  root := members
    [("components", members [("schemas", schemas)]),
      ("paths", members [("/nodes", members [("get", members [("responses", responses)])])])]

end Listing

/-- The listing is built with its two schemas and the object of its response, and no view of it fails. -/
theorem viewsTotal_of_listing :
    ({} : Options).validateReferences = true ∧
      ∃ s, (build (.memory [("api.yaml", .ok Listing.document)]) {} "api.yaml").2 = .ok s ∧
        s.names = ["Entity", "Node", "NodesGet200Response"] ∧ s.ViewsTotal := by
  refine ⟨rfl, ?_⟩
  have hnames : ((build (.memory [("api.yaml", .ok Listing.document)]) {} "api.yaml").2.map
      Spec.names).toOption = some ["Entity", "Node", "NodesGet200Response"] := by decide +kernel
  cases hbuild : (build (.memory [("api.yaml", .ok Listing.document)]) {} "api.yaml").2 with
  | error e =>
    rw [hbuild] at hnames
    exact absurd hnames (by simp [Except.map, Except.toOption])
  | ok s =>
    rw [hbuild] at hnames
    exact ⟨s, rfl, Option.some.inj hnames, viewsTotal_of_build rfl hbuild⟩

end Build

end OpenApi
