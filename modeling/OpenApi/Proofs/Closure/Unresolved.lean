/-
  OpenApi.Proofs.Closure.Unresolved — which references are reported as unresolved.

  A build that validates references reads the same as one that does not. It fails because of references if and only
  if one that is written in a document that was read names no model that such a document declares, and then it lists
  all of these, ascending. A body that becomes a model counts like a named schema. Which documents could not be
  loaded does not matter by itself: a reference into one of them names no model. Main statement:
  `unresolved_of_build`.
-/
import OpenApi.Proofs.Closure.Reached
import OpenApi.Proofs.Composition.Flattening
import OpenApi.Proofs.Spec.Answers

namespace OpenApi

/-! ## §1. Unresolved references of a spec. -/

namespace Spec

variable {s : Spec} {text : String}

theorem mem_unresolvedReferences (hs : s.InStep) : text ∈ s.unresolvedReferences ↔
    text ∈ s.references ∧ ∀ m ∈ s.models, SchemaRef.place m.file m.model.name ≠ text := by
  unfold unresolvedReferences
  rw [List.mem_filter, ← Option.not_isSome, ← hs.isSome_declared?, Option.not_isSome, Option.isNone_iff_eq_none,
    hs.declared?_eq_none]
  rfl

theorem validateReferences_eq_ok (h : s.unresolvedReferences = []) : s.validateReferences = .ok () := by
  unfold validateReferences
  rw [h]

theorem validateReferences_eq_error (h : s.unresolvedReferences ≠ []) :
    s.validateReferences = .error ⟨.unresolvedReferences s.unresolvedReferences, none⟩ := by
  unfold validateReferences
  split
  next hnone => exact absurd hnone h
  next => rfl

/-- What is wrong with a composition is not told as unresolved references. -/
theorem Fault.ne_unresolved {m : Model} {e : Error} (h : s.Fault m e) (references : List String) :
    e.cause ≠ .unresolvedReferences references := by
  cases h with
  | unresolved _ _ h =>
    obtain rfl | ⟨n, rfl⟩ := getModel_eq_error h
    · exact nofun
    · exact nofun
  | notAnObject | cycle | lacking => exact nofun

theorem checkCompositions_ne_unresolved (hs : s.NamesDistinct) {e : Error} (h : s.checkCompositions = .error e)
    (references : List String) : e.cause ≠ .unresolvedReferences references := by
  obtain ⟨m, hm, hfails⟩ := Outcome.forM_eq_error h
  split at hfails
  next a =>
    cases hproperties : s.allProperties (.allOf a) with
    | ok ps =>
      rw [hproperties] at hfails
      exact absurd hfails nofun
    | error e' =>
      rw [hproperties] at hfails
      obtain rfl := Except.error.inj hfails
      exact (fault_of_allProperties hs hm hproperties).ne_unresolved references
  next => exact absurd hfails nofun

end Spec

namespace Build

variable {loader : Loader} {options : Options} {entry : String} {v : Visited} {after : Session} {s : Spec}

/-! ## §2. Builds with and without validation. -/

/-- A build that read its documents gives their spec, if the checks pass. -/
theorem build_of_readAll (h : (readAll loader options entry).run.run ⟨.none, .empty entry, []⟩ = (.ok v, after)) :
    (build loader options entry).2 = (check options v after.spec).map fun _ => after.spec := by
  have hbuild : (build loader options entry).2 =
      ((buildSpec loader options entry).run.run ⟨.none, .empty entry, []⟩).1 := rfl
  have hlook : Building.spec.run.run after = (.ok after.spec, after) := rfl
  rw [hbuild, buildSpec, Building.run_bind h, Building.run_bind hlook]
  cases check options v after.spec with
  | error e => rfl
  | ok _ => rfl

/-- Where a build without validation succeeds, one with validation reads the same and makes two more checks. -/
theorem build_validated (h : (build loader { options with validateReferences := false } entry).2 = .ok s) :
    (build loader { options with validateReferences := true } entry).2 =
      (s.validateReferences >>= fun _ => s.checkCompositions).map fun _ => s := by
  obtain ⟨v, after, hrun, rfl, hcheck⟩ := build_eq_ok.1 h
  -- the documents are read without a look at this option
  have hrun' : (readAll loader { options with validateReferences := true } entry).run.run ⟨.none, .empty entry, []⟩ =
      (.ok v, after) := hrun
  rw [build_of_readAll hrun']
  have hstrict : (if options.strict then v.documents.forM fun e => e.1.checkUnused e.2 else pure ()) = .ok () := by
    split
    next hon => exact (check_eq_ok.1 hcheck).2 hon
    next => rfl
  unfold check
  rw [if_pos rfl]
  cases hreferences : after.spec.validateReferences with
  | error e => rfl
  | ok _ =>
    cases hcompositions : after.spec.checkCompositions with
    | error e => rfl
    | ok _ => exact congrArg (Except.map fun _ => after.spec) hstrict

/-- A build with validation fails because of references exactly if some are unresolved, and tells which. -/
theorem build_eq_unresolved (h : (build loader { options with validateReferences := false } entry).2 = .ok s)
    {references : List String} {span : Option Span} :
    (build loader { options with validateReferences := true } entry).2 =
        .error ⟨.unresolvedReferences references, span⟩ ↔
      references ≠ [] ∧ references = s.unresolvedReferences ∧ span = none := by
  obtain ⟨v, after, hrun, hspec, -⟩ := build_eq_ok.1 h
  have hmade : s.Made := hspec ▸ (recorded_of_readAll hrun).1
  rw [build_validated h]
  by_cases hnone : s.unresolvedReferences = []
  -- then only compositions can fail, and they tell other errors
  · rw [Spec.validateReferences_eq_ok hnone, hnone]
    constructor
    · intro hfails
      have hcompositions : s.checkCompositions = .error ⟨.unresolvedReferences references, span⟩ := by
        cases hcheck : s.checkCompositions with
        | ok _ => rw [hcheck] at hfails; exact absurd hfails nofun
        | error e => rw [hcheck] at hfails; exact congrArg Except.error (Except.error.inj hfails)
      exact absurd rfl (Spec.checkCompositions_ne_unresolved hmade.namesDistinct hcompositions references)
    · rintro ⟨hne, heq, -⟩
      exact absurd heq hne
  · rw [Spec.validateReferences_eq_error hnone]
    constructor
    · intro hfails
      cases hfails
      exact ⟨hnone, rfl, rfl⟩
    · rintro ⟨-, rfl, rfl⟩
      rfl

/-! ## §3. Broken references. -/

/-- The place is that of a reference which is written in a document that references lead to, and no such document
declares a model there. -/
def Broken (loader : Loader) (entry text : String) : Prop :=
  (∃ d raw r, Reached loader entry d ∧ d.Writes entry raw ∧ SchemaRef.parse raw d.filename = .ok r ∧
      r.reference = text) ∧
    ∀ d name, Reached loader entry d → d.Declares entry name → SchemaRef.place d.filename name ≠ text

/-- The unresolved references of a spec that closes its documents are the broken ones: a reference to a body that
became a model is not among them. -/
theorem Closed.mem_unresolved_iff {events : List Event} (h : Closed loader entry v events s) (hs : s.InStep)
    {text : String} :
    text ∈ s.unresolvedReferences ↔ Broken loader entry text := by
  have hnames : (∀ m ∈ s.models, SchemaRef.place m.file m.model.name ≠ text) ↔
      ∀ d name, Reached loader entry d → d.Declares entry name → SchemaRef.place d.filename name ≠ text := by
    constructor
    · intro hmodels d name hd hdeclares
      obtain ⟨m, hm, hfile, hname⟩ := (h.models d.filename name).2 ⟨d, (h.documents d).2 hd, rfl, hdeclares⟩
      rw [← hfile, ← hname]
      exact hmodels m hm
    · intro hdeclared m hm
      obtain ⟨d, hd, hfile, hdeclares⟩ := (h.models m.file m.model.name).1 ⟨m, hm, rfl, rfl⟩
      rw [← hfile]
      exact hdeclared d m.model.name ((h.documents d).1 hd) hdeclares
  rw [Spec.mem_unresolvedReferences hs, h.references, hnames]
  unfold Broken
  refine and_congr_left fun hdeclared => ⟨?_, ?_⟩
  · rintro ⟨d, hd, r, ⟨raw, hwrites, hparse⟩ | ⟨hentry, name, hname, rfl⟩, htext⟩
    · exact ⟨d, raw, r, (h.documents d).1 hd, hwrites, hparse, htext⟩
    -- the model of a body is declared where the reference to it leads
    · exact absurd htext (hdeclared d name ((h.documents d).1 hd) (.inr ⟨hentry, hname⟩))
  · rintro ⟨d, raw, r, hd, hwrites, hparse, htext⟩
    exact ⟨d, (h.documents d).2 hd, r, .inl ⟨raw, hwrites, hparse⟩, htext⟩

/-- **The report of unresolved references is exact.** Where a build of texts in memory succeeds without validation,
every reference that it came upon could be read, and the build with validation fails because of references if and only
if one of them is broken; then it lists those that are, ascending. -/
theorem unresolved_of_build {texts : List (String × String)}
    (h : (build (.ofTexts texts) { options with validateReferences := false } entry).2 = .ok s) :
    (∀ d raw, Reached (.ofTexts texts) entry d → d.Writes entry raw → ∃ r, SchemaRef.parse raw d.filename = .ok r) ∧
      ((∃ references span, (build (.ofTexts texts) { options with validateReferences := true } entry).2 =
          .error ⟨.unresolvedReferences references, span⟩) ↔ ∃ text, Broken (.ofTexts texts) entry text) ∧
        ∀ references span, (build (.ofTexts texts) { options with validateReferences := true } entry).2 =
          .error ⟨.unresolvedReferences references, span⟩ →
            references.Pairwise (· < ·) ∧ ∀ text, text ∈ references ↔ Broken (.ofTexts texts) entry text := by
  -- the run without the check gives the closed state, in which unresolved means broken
  obtain ⟨v, after, hrun, hspec, -⟩ := build_eq_ok.1 h
  have hclosed := closed_of_visited h hrun hspec
  have hmade : s.Made := hspec ▸ (recorded_of_readAll hrun).1
  have hmem := fun {text} => @Closed.mem_unresolved_iff _ _ _ _ _ hclosed hmade.inStep text
  refine ⟨fun d raw hd => hclosed.parses d ((hclosed.documents d).2 hd) raw, ⟨?_, ?_⟩, ?_⟩
  · rintro ⟨references, span, hfails⟩
    obtain ⟨hne, rfl, -⟩ := (build_eq_unresolved h).1 hfails
    obtain ⟨text, htext⟩ := List.exists_mem_of_ne_nil _ hne
    exact ⟨text, hmem.1 htext⟩
  · rintro ⟨text, hbroken⟩
    have hne := List.ne_nil_of_mem (hmem.2 hbroken)
    exact ⟨s.unresolvedReferences, none, (build_eq_unresolved h).2 ⟨hne, rfl, rfl⟩⟩
  · intro references span hfails
    obtain ⟨-, rfl, -⟩ := (build_eq_unresolved h).1 hfails
    exact ⟨hmade.references_ascend.filter _, fun text => hmem⟩

/-- The document of the cats is not there, so the reference into it is reported, and that of the dogs to themselves
is not. -/
theorem unresolved_of_dogs :
    ∃ s, (build (.ofTexts [("dogs.json", Pets.dogs)]) { validateReferences := false } "dogs.json").2 = .ok s ∧
      (build (.ofTexts [("dogs.json", Pets.dogs)]) { validateReferences := true } "dogs.json").2 =
          .error ⟨.unresolvedReferences ["cats.json#/components/schemas/Cat"], none⟩ ∧
        ∀ text, text ∈ ["cats.json#/components/schemas/Cat"] ↔
          Broken (.ofTexts [("dogs.json", Pets.dogs)]) "dogs.json" text := by
  have hunresolved : ((build (.ofTexts [("dogs.json", Pets.dogs)]) { validateReferences := false } "dogs.json").2.map
      Spec.unresolvedReferences).toOption = some ["cats.json#/components/schemas/Cat"] := by decide +kernel
  obtain ⟨s, hs, hreferences⟩ := Outcome.exists_of_map hunresolved
  have hfails := (@build_eq_unresolved _ {} _ _ hs ["cats.json#/components/schemas/Cat"] none).2
    ⟨List.cons_ne_nil _ _, hreferences.symm, rfl⟩
  obtain ⟨-, -, hexact⟩ := @unresolved_of_build {} _ _ _ hs
  exact ⟨s, hs, hfails, (hexact _ _ hfails).2⟩

namespace Promoted

open Listing (members link)

/-- The object that is declared in place of a response refers to itself by the name that it gets. -/
def text : String :=
  "\x7b\"paths\":\x7b\"/pets\":\x7b\"get\":\x7b\"responses\":\x7b\"200\":\x7b\"content\":\x7b\"a/json\":" ++
    "\x7b\"schema\":\x7b\"properties\":\x7b\"next\":\x7b\"$ref\":" ++
    "\"#/components/schemas/PetsGet200Response\"\x7d\x7d\x7d\x7d\x7d\x7d\x7d\x7d\x7d\x7d\x7d"

def response : Node := members [("properties", members [("next", link "PetsGet200Response")])]

def tree : Node := members [("paths", members [("/pets", members [("get", members [("responses", members
  [("200", members [("content", members [("a/json", members [("schema", response)])])])])])])])]

theorem tree?_text : Document.tree? .json text = some tree := by cbv

def document : Document := ⟨⟨text, "api.json"⟩, .json, tree⟩

theorem pathSchemas_tree : tree.pathSchemas = [response] := by cbv

theorem parts_response : response.parts = [link "PetsGet200Response"] := by cbv

theorem schemaNames_tree : tree.schemaNames = [] := by cbv

theorem writes_document : document.Writes "api.json" "#/components/schemas/PetsGet200Response" := by
  have hpart : link "PetsGet200Response" ∈ response.parts := parts_response ▸ List.mem_singleton_self _
  have hschema : response ∈ tree.pathSchemas := pathSchemas_tree ▸ List.mem_singleton_self _
  exact .inr ⟨rfl, response, hschema, .inside rfl hpart (.here rfl)⟩

theorem parse_reference :
    SchemaRef.parse "#/components/schemas/PetsGet200Response" "api.json" =
      .ok ⟨"api.json#/components/schemas/PetsGet200Response", "#/components/schemas/PetsGet200Response",
        "api.json"⟩ := by
  decide +kernel

theorem load_document : ((Loader.ofTexts [("api.json", text)]).load "api.json").2 = .ok document :=
  Loader.load_ofTexts_eq_ok.2 ⟨text, rfl, Annotated.parse_of_tree? tree?_text⟩

/-- No other document can be loaded. -/
theorem eq_document_of_load {name : String} {d : Document}
    (h : ((Loader.ofTexts [("api.json", text)]).load name).2 = .ok d) : d = document := by
  obtain ⟨content, hcontent, -⟩ := Loader.load_ofTexts_eq_ok.1 h
  have hname : name = "api.json" := by
    by_contra hother
    have hnone : Keyed.value? name [("api.json", text)] = none := by
      simp [Keyed.value?, Keyed.find?, Ne.symm hother]
    rw [hnone] at hcontent
    cases hcontent
  rw [hname, load_document] at h
  exact (Except.ok.inj h).symm

end Promoted

/-- A reference that names no entry of `components.schemas` in any document is not reported if a body becomes a model
of that name. -/
theorem promoted_resolves :
    ∃ s d raw r, (build (.ofTexts [("api.json", Promoted.text)]) { validateReferences := false } "api.json").2 = .ok s ∧
      (build (.ofTexts [("api.json", Promoted.text)]) { validateReferences := true } "api.json").2 = .ok s ∧
        Reached (.ofTexts [("api.json", Promoted.text)]) "api.json" d ∧ d.Writes "api.json" raw ∧
          SchemaRef.parse raw d.filename = .ok r ∧
            ∀ d', Reached (.ofTexts [("api.json", Promoted.text)]) "api.json" d' → ∀ name ∈ d'.root.schemaNames,
              SchemaRef.place d'.filename name ≠ r.reference := by
  have hnames : ((build (.ofTexts [("api.json", Promoted.text)]) { validateReferences := true } "api.json").2.map
      Spec.names).toOption = some ["PetsGet200Response"] := by decide +kernel
  obtain ⟨s, hs, -⟩ := Outcome.exists_of_map hnames
  have hoff : (build (.ofTexts [("api.json", Promoted.text)]) { validateReferences := false } "api.json").2 =
      .ok s := by
    obtain ⟨v, after, hrun, hspec, hcheck⟩ := build_eq_ok.1 hs
    exact build_eq_ok.2 ⟨v, after, hrun, hspec, check_eq_ok.2 ⟨nofun, (check_eq_ok.1 hcheck).2⟩⟩
  refine ⟨s, Promoted.document, _, _, hoff, hs, .entry Promoted.load_document, Promoted.writes_document,
    Promoted.parse_reference, fun d' hd' name hname => ?_⟩
  -- the single text refers to itself only, so every document reached is this one, and it declares no schema
  have hsame : d' = Promoted.document := by
    cases hd' with
    | entry hload => exact Promoted.eq_document_of_load hload
    | next _ _ hload => exact Promoted.eq_document_of_load hload
  have hnone : d'.root.schemaNames = [] := hsame ▸ Promoted.schemaNames_tree
  rw [hnone] at hname
  exact absurd hname List.not_mem_nil

end Build

end OpenApi
