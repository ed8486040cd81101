/-
  OpenApi.Proofs.Build.Naming — references name their models.

  A reference is a text, and its model is found by comparing texts. A build that starts from a file without number
  sign declares models in such files only, whatever the documents say: so a reference that resolves tells the file
  of its model, and the name of the model just where that holds no slash (`getModel_names`). The identifier of an
  operation may hold one, and passes it on to the models of its bodies (`className_in_nested`).
-/
import OpenApi.Proofs.Build.Making
import OpenApi.Proofs.Build.Validation
import OpenApi.Proofs.Build.Visits
import OpenApi.Proofs.Reference
import OpenApi.Proofs.Strictness.DocumentReaders

namespace OpenApi

/-! ## §1. Specs of plain files. -/

namespace Spec

variable {s t : Spec} {changes : List Change}

/-- A file that a recorded reference names has no number sign, for it ends before the first one. -/
theorem mark_not_mem_of_referencedFiles {file : String} (h : file ∈ s.referencedFiles) : '#' ∉ file.toList := by
  obtain ⟨reference, -, hfile⟩ := List.mem_filterMap.1 (Text.mem_ordered.1 h)
  obtain ⟨⟨front, rest⟩, hcut, rfl⟩ := Option.map_eq_some_iff.1 hfile
  rw [String.toList_ofList]
  exact (Text.splitFirst_eq_some hcut).2

theorem apply_entryFile {c : Change} (h : s.apply c = .ok t) : t.entryFile = s.entryFile := by
  cases c with
  | model file m =>
    rw [(addModel_ok h).2]
    rfl
  | operation o => rw [addOperation_ok h]
  | describe => rw [← Except.ok.inj h]
  | reference | securityScheme =>
    rw [← Except.ok.inj h]
    rfl

/-- No change touches the name of the first document. -/
theorem applyAll_entryFile : ∀ {s t : Spec}, s.applyAll changes = .ok t → t.entryFile = s.entryFile := by
  induction changes with
  | nil =>
    intro s t h
    rw [← Except.ok.inj h]
  | cons c changes ih =>
    intro s t h
    obtain ⟨mid, hc, h⟩ := Outcome.bind_eq_ok.1 h
    rw [ih h, apply_entryFile hc]

/-- A reference that resolves tells the file of its model, and the name of the model where that has no slash. -/
theorem InStep.names_of_resolves (hs : s.InStep) (hplain : s.FilesPlain) {r : SchemaRef} (hr : s.Resolves r) :
    ∃ d ∈ s.models, s.getModel r = .ok d.model ∧ d.file = r.file ∧
      (d.model.name = r.className ↔ '/' ∉ d.model.name.toList) := by
  obtain ⟨m, hm⟩ := hr
  obtain ⟨n, hn, -⟩ := getModel_eq_ok.1 hm
  obtain ⟨d, hd, hplace⟩ := hs.placed _ n (Spec.modelNumber_eq_ok.1 hn)
  have hmem : d ∈ s.models := List.mem_of_getElem? hd
  refine ⟨d, hmem, getModel_eq_ok.2 ⟨n, hn, (getElem?_models.1 hd).2⟩, ?_, ?_⟩
  · exact (SchemaRef.file_eq hplace.symm (hplain d hmem)).symm
  · rw [eq_comm]
    exact SchemaRef.className_eq_iff hplace.symm

end Spec

/-! ## §2. Changes of plain files. -/

/-- The change belongs to a document whose name has no number sign. -/
def Change.IsPlain (c : Change) : Prop := ∃ file : String, '#' ∉ file.toList ∧ c.IsFrom file

/-- Changes of plain documents declare models in plain files. -/
theorem Spec.filesPlain_of_changes {file : String} {changes : List Change} {s : Spec}
    (h : (Spec.empty file).applyAll changes = .ok s) (hchanges : ∀ c ∈ changes, c.IsPlain) : s.FilesPlain := by
  intro d hd
  rw [applyAll_models rfl h] at hd
  obtain ⟨file', hfile, hfrom⟩ := hchanges _ (Change.mem_declared.1 hd)
  have hsame : d.file = file' := hfrom
  rw [hsame]
  exact hfile

namespace Build

open Building (Makes)

variable {loader : Loader} {options : Options} {entry : String} {s : Spec}

/-! ## §3. Builds. -/

theorem readWith_makesPlain {read : Mapping → Building Unit} {d : Document} (hd : '#' ∉ d.filename.toList)
    (hread : ∀ (T : Trim) (m m' : Mapping), T.Cuts m m' →
      T.Follows (read m) (read m') (fun _ _ => True) True) : (readWith read d).Makes Change.IsPlain := by
  intro session u after h
  obtain ⟨⟨changes, happly, hfrom⟩, -⟩ := readWith_trimmed hread h
  exact ⟨changes, happly, fun c hc => ⟨d.filename, hd, hfrom c hc⟩⟩

theorem readReferenced_makesPlain (hloader : loader.KeepsPlain) (v : Visited) {file : String}
    (hfile : '#' ∉ file.toList) : (readReferenced loader v file).Makes Change.IsPlain := by
  unfold readReferenced
  dsimp only
  refine .after (report_silent _) fun _ => ?_
  split
  next e _ =>
    split
    next => exact .after (.of_report _) fun _ => .pure
    next => exact .throw
  next d hload =>
    have hd : '#' ∉ d.filename.toList := hloader file d hfile hload
    refine .after (.of_report _) fun _ => ?_
    exact (readWith_makesPlain hd fun _ _ _ => readForeignDocument_follows).bind fun _ => .pure

theorem readPending_makesPlain (hloader : loader.KeepsPlain) {rounds : Nat} :
    ∀ v, (readPending loader rounds v).Makes Change.IsPlain := by
  induction rounds with
  | zero => exact fun v => .pure
  | succ rounds ih =>
    intro v
    unfold readPending
    refine .spec fun s => ?_
    have hplain : ∀ file ∈ pending v s, '#' ∉ file.toList := fun file hfile =>
      Spec.mark_not_mem_of_referencedFiles (List.mem_filter.1 hfile).1
    split
    next => exact .pure
    next =>
      exact (Makes.foldlM (fun v file hfile =>
        readReferenced_makesPlain hloader v (hplain file hfile)) v).bind ih

/-- What is read from a plain entry document on declares its models in plain files. -/
theorem filesPlain_of_readAll (hloader : loader.KeepsPlain) {v : Visited} {session after : Session}
    (h : (readAll loader options entry).run.run session = (.ok v, after))
    (hentry : '#' ∉ after.spec.entryFile.toList) : after.spec.FilesPlain := by
  obtain ⟨d, _, hload, hmade, -⟩ := changes_of_readAll h
  rw [Spec.applyAll_entryFile hmade] at hentry
  obtain ⟨d', started, hload', hspec, h⟩ := readAll_ok h
  obtain rfl : d = d' := Except.ok.inj (hload.symm.trans hload')
  have hplain : Makes Change.IsPlain (readWith (readEntryDocument options) d >>= fun u =>
      readPending loader (loader.size + 2) ⟨[d.filename, entry], [(d, u)]⟩) :=
    (readWith_makesPlain hentry fun _ _ _ => readEntryDocument_follows options).bind
      fun _ => readPending_makesPlain hloader _
  obtain ⟨changes, happly, hchanges⟩ := hplain _ _ _ h
  exact Spec.filesPlain_of_changes (hspec ▸ happly) hchanges

/-- **A reference names its model.** In a spec that was built with validation from a file without number sign,
each reference that is stored resolves to a model of the file that it tells, and it tells the name of the model
just where that name holds no slash. -/
theorem getModel_names (hloader : loader.KeepsPlain) (hvalidate : options.validateReferences = true)
    (h : (build loader options entry).2 = .ok s) (hentry : '#' ∉ s.entryFile.toList) {r : SchemaRef}
    (hr : s.StoresReference r) :
    ∃ d ∈ s.models, s.getModel r = .ok d.model ∧ d.file = r.file ∧
      (d.model.name = r.className ↔ '/' ∉ d.model.name.toList) := by
  have hresolves : s.Resolves r := ((viewsTotal_of_build hvalidate h).recorded r hr).2
  obtain ⟨v, after, hread, rfl, -⟩ := build_eq_ok.1 h
  exact (recorded_of_readAll hread).1.inStep.names_of_resolves (filesPlain_of_readAll hloader hread hentry) hresolves

/-! ## §4. A response with a name of its own. -/

namespace Inline

open Listing (members)

/-- An operation with an identifier, whose response is an object that is declared in place. -/
def document (id : String) : Document where
  source := ⟨"", "api.yaml"⟩
  format := .yaml
  root := members [("paths", members [("/pets", members [("get", members
    [("operationId", .string id), ("responses", members [("200", members [("content", members
      [("application/json", members [("schema", members [("properties", members
        [("id", members [("type", .string "string")])])])])])])])])])])]

/-- The loader that serves the document alone. -/
def served (id : String) : Loader := .memory [("api.yaml", .ok (document id))]

theorem keepsPlain_served (id : String) : (served id).KeepsPlain := by
  refine (Loader.knowsByName_memory fun e he d hd => ?_).keepsPlain
  obtain rfl := List.mem_singleton.1 he
  rw [← Except.ok.inj hd]
  rfl

/-- What the operations of a spec refer to: the file and name that each reference tells, and the name of the model
that it leads to. -/
def targets (s : Spec) : List (String × String × Option String) :=
  (s.operations.flatMap Operation.references).map fun r =>
    (r.file, r.className, (s.getModel r).toOption.map Model.name)

/-- A target of the operations is that of a reference that the spec stores. -/
theorem exists_of_mem_targets {s : Spec} {file name model : String}
    (h : (file, name, some model) ∈ targets s) :
    ∃ r m, s.StoresReference r ∧ s.getModel r = .ok m ∧ r.file = file ∧ r.className = name ∧
      m.name = model := by
  obtain ⟨r, hr, htarget⟩ := List.mem_map.1 h
  obtain ⟨o, ho, hstored⟩ := List.mem_flatMap.1 hr
  obtain ⟨hfile, hrest⟩ := Prod.mk.inj htarget
  obtain ⟨hname, hmodel⟩ := Prod.mk.inj hrest
  cases hm : s.getModel r with
  | error e =>
    rw [hm] at hmodel
    exact absurd hmodel nofun
  | ok m =>
    rw [hm] at hmodel
    exact ⟨r, m, .operation ho hstored, hm, hfile, hname, Option.some.inj hmodel⟩

/-- The spec of the document and the targets in it, if it is built. -/
theorem exists_of_build {id name model : String}
    (h : ((build (served id) {} "api.yaml").2.map fun s => (s.entryFile, targets s)).toOption =
      some ("api.yaml", [("api.yaml", name, some model)])) :
    ∃ s, (build (served id) {} "api.yaml").2 = .ok s ∧ s.entryFile = "api.yaml" ∧
      ∃ r m, s.StoresReference r ∧ s.getModel r = .ok m ∧ r.file = "api.yaml" ∧ r.className = name ∧
        m.name = model := by
  obtain ⟨s, hbuild, htold⟩ := Outcome.exists_of_map h
  obtain ⟨hentry, htargets⟩ := Prod.mk.inj htold
  refine ⟨s, hbuild, hentry, exists_of_mem_targets ?_⟩
  rw [htargets]
  exact List.mem_singleton_self _

end Inline

/-- The response of `listPets` becomes a model that its reference names. -/
theorem getModel_names_of_listPets :
    ∃ s, (build (Inline.served "listPets") {} "api.yaml").2 = .ok s ∧ '#' ∉ s.entryFile.toList ∧
      ∃ r, s.StoresReference r ∧ ∃ d ∈ s.models, s.getModel r = .ok d.model ∧ d.file = r.file ∧
        d.model.name = r.className ∧ r.className = "ListPets200Response" := by
  obtain ⟨s, hbuild, hentry, r, m, hr, hm, hfile, hname, hmodel⟩ :=
    @Inline.exists_of_build "listPets" "ListPets200Response" "ListPets200Response" (by decide +kernel)
  have hplain : '#' ∉ s.entryFile.toList := by
    rw [hentry]
    decide
  obtain ⟨d, hd, hget, hsame, hiff⟩ :=
    getModel_names (Inline.keepsPlain_served "listPets") rfl hbuild hplain hr
  have hmodel' : d.model.name = "ListPets200Response" := by
    rw [← hmodel, Except.ok.inj (hget.symm.trans hm)]
  refine ⟨s, hbuild, hplain, r, hr, d, hd, hget, hsame, hiff.2 ?_, hname⟩
  rw [hmodel']
  decide

/-- The response of `a/b` becomes a model of which its reference tells only the end of the name. -/
theorem className_in_nested :
    ∃ s, (build (Inline.served "a/b") {} "api.yaml").2 = .ok s ∧ '#' ∉ s.entryFile.toList ∧
      ∃ r m, s.StoresReference r ∧ s.getModel r = .ok m ∧ m.name = "A/b200Response" ∧
        r.className = "b200Response" := by
  obtain ⟨s, hbuild, hentry, r, m, hr, hm, -, hname, hmodel⟩ :=
    @Inline.exists_of_build "a/b" "b200Response" "A/b200Response" (by decide +kernel)
  refine ⟨s, hbuild, ?_, r, m, hr, hm, hmodel, hname⟩
  rw [hentry]
  decide

end Build

end OpenApi
