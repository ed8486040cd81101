/-
  OpenApi.Proofs.Closure.DocumentReaders — what is found in documents.

  Reading the entry document finds what is written in its named schemas and in its paths; reading a document that is
  only referenced finds what is written in its named schemas. So the references that a spec holds, and the models
  that it declares, are told by the documents that were read. Main statements: `readEntryDocument_finds`,
  `readForeignDocument_finds`.
-/
import OpenApi.Proofs.Build.DocumentReaders
import OpenApi.Proofs.Build.Exploration
import OpenApi.Proofs.Closure.OperationReaders

namespace OpenApi

namespace Node

/-- What is found in the named schemas of a document. -/
def schemaFindings (root : Node) : Findings := ⟨root.SchemasRefer, (· ∈ root.schemaNames), fun _ => False⟩

/-- What is found in the entry document. -/
def entryFindings (root : Node) : Findings where
  written raw := root.SchemasRefer raw ∨ root.PathsRefer raw
  schemas name := name ∈ root.schemaNames
  bodies name := name ∈ root.promotedNames

end Node

namespace Build

open Building (Finds Silent)

variable {m : Mapping} {file : String}

/-! ## §1. Documents. -/

/-- What is found in a named schema. -/
def namedFindings (e : String × Node) : Findings := (Findings.references e.2.ModelRefers).and (.schema e.1)

/-- All named schemas of a document. -/
theorem each_components (root : Node) :
    (.each (root.value? "components").toList fun c => .each (c.membersAt "schemas") namedFindings) =
      root.schemaFindings := by
  have hall : .each root.declaredSchemas namedFindings = root.schemaFindings := by
    ext name <;> simp [Findings.each, namedFindings, Findings.and, Findings.references, Findings.schema, Findings.none,
      Node.schemaFindings, Node.SchemasRefer, Node.schemaNames]
  rw [← hall]
  unfold Node.declaredSchemas
  cases root.value? "components" with
  | none => exact Findings.each_nil _ |>.trans (Findings.each_nil _).symm
  | some c =>
    rw [Option.toList_some, Findings.each_cons, Findings.each_nil, Findings.and_none]
    rfl

theorem readComponentModels_finds (hfile : m.filename = file) :
    (readComponentModels m).Finds file (fun _ => True) (.each (m.node.membersAt "schemas") namedFindings) := by
  unfold readComponentModels
  rw [← Findings.each_membersAt]
  refine Finds.found fun l hl hfiles => ?_
  rw [← hl]
  exact Finds.optionally fun c hc => readModels_finds ((hfiles c hc).trans hfile)

/-- A change of the spec that adds no model and records no reference. -/
theorem change_finds {f : Spec → Spec} (change : Spec → Change) (happly : ∀ s : Spec, s.apply (change s) = .ok (f s))
    (hreference : ∀ s, (change s).reference? = none) (hmodel : ∀ s, (change s).declared? = none) :
    (Building.update fun spec => .ok (f spec)).Finds file (fun _ => True) .none := by
  refine .of_yields (.update fun s t h => ⟨change s, ?_, trivial, fun known => .of_other (hreference s) (hmodel s)⟩)
  rw [← Except.ok.inj h]
  exact happly s

theorem declareInfo_finds : (declareInfo m).Finds file (fun _ => True) .none := by
  unfold declareInfo
  refine .after (readInfo_silent m) fun info => ?_
  exact change_finds (fun s => .describe info s.servers) (fun _ => rfl) (fun _ => rfl) fun _ => rfl

theorem readSchemes_finds : (readSchemes m).Finds file (fun _ => True) .none := by
  have hscheme : ∀ key (c : Mapping), (declareScheme key c).Finds file (fun _ => True) .none := by
    intro key c
    unfold declareScheme
    refine .after (readScheme_silent key c) fun scheme => .report fun _ => ?_
    exact change_finds (fun _ => .securityScheme scheme) (fun _ => rfl) (fun _ => rfl) fun _ => rfl
  unfold readSchemes
  exact .reading fun entries => (Finds.forM fun e _ => hscheme e.1 e.2).congr (Findings.each_none _)

theorem readComponentSchemes_finds : (readComponentSchemes m).Finds file (fun _ => True) .none := by
  unfold readComponentSchemes
  refine .reading fun l => ?_
  exact (Finds.optionally (F := fun _ => .none) fun c _ => readSchemes_finds).congr (Findings.each_none _)

/-- **Reading the entry document finds what is written in its named schemas and paths.** -/
theorem readEntryDocument_finds (hfile : m.filename = file) (options : Options) :
    (readEntryDocument options m).Finds file (fun _ => True) m.node.entryFindings := by
  -- the findings are put in the order in which the sections are read, then told off one reader after the other
  have hall : m.node.entryFindings = m.node.schemaFindings.and
      (Findings.inside m.node.pathSchemas m.node.promotedNames) := by
    ext name <;> simp [Node.entryFindings, Findings.and, Findings.inside, Node.schemaFindings, Node.PathsRefer]
  rw [hall, ← each_components, ← each_itemFindings, ← Findings.each_membersAt]
  unfold readEntryDocument
  refine .reading fun _ => .reading fun found => ?_
  have hinfo : (Building.optionally declareInfo () found.optional).Finds file (fun _ => True) .none :=
    (Finds.optionally (F := fun _ => .none) fun c _ => declareInfo_finds).congr (Findings.each_none _)
  refine (hinfo.bind fun _ _ => ?_).congr (Findings.none_and _)
  refine .after (readServers_silent m) fun servers => ?_
  have hservers : (Building.update fun spec => .ok { spec with servers }).Finds file (fun _ => True) .none :=
    change_finds (fun s => .describe s.info servers) (fun _ => rfl) (fun _ => rfl) fun _ => rfl
  refine (hservers.bind fun _ _ => ?_).congr (Findings.none_and _)
  refine Finds.found fun components hcomponents hfiles => ?_
  rw [← hcomponents]
  refine (Finds.optionally fun c hc => readComponentModels_finds ((hfiles c hc).trans hfile)).bind fun _ _ => ?_
  refine .after (readCommonSecurity_silent m) fun security => ?_
  -- the security schemes come after the paths and find nothing
  rw [← Findings.and_none (.each (m.node.value? "paths").toList _)]
  refine Finds.optional (fun c hcfile => readPaths_finds (hcfile.trans hfile) _) fun _ => ?_
  exact (Finds.optionally (F := fun _ => .none) fun c _ => readComponentSchemes_finds).congr (Findings.each_none _)

/-- **Reading a document that is only referenced finds what is written in its named schemas.** -/
theorem readForeignDocument_finds (hfile : m.filename = file) :
    (readForeignDocument m).Finds file (fun _ => True) m.node.schemaFindings := by
  unfold readForeignDocument
  rw [← each_components]
  refine .reading fun _ => Finds.mapping (fun hnone l hl => ?_) fun c l hc hcfile hl => ?_
  · rw [hl, hnone]
    exact (Finds.pure trivial).congr (Findings.each_nil _).symm
  · rw [hl, hc, Option.toList_some, Findings.each_cons, Findings.each_nil, Findings.and_none]
    exact .reading fun _ => readComponentModels_finds (hcfile.trans hfile)

/-- Reading a document finds what reading from its root does. -/
theorem readWith_finds {read : Mapping → Building Unit} {F : Node → Findings} (d : Document)
    (hread : ∀ root, root.filename = d.filename → (read root).Finds d.filename (fun _ => True) (F root.node)) :
    (readWith read d).Finds d.filename (fun _ => True) (F d.root) := by
  have hroot : (liftM d.mapping >>= read : Building Unit).Finds d.filename (fun _ => True) (F d.root) := by
    refine .lift fun root hmapping => ?_
    obtain ⟨-, rfl⟩ := Mapping.ofNode_eq_ok.1 hmapping
    exact hread _ rfl
  intro session u after hrun
  rw [run_readWith] at hrun
  cases hfrom : (liftM d.mapping >>= read).run.run { session with usage := .none } with
  | mk result middle =>
    rw [hfrom] at hrun
    obtain ⟨hresult, rfl⟩ := Prod.mk.inj hrun
    cases result with
    | error e => exact absurd hresult nofun
    | ok _ =>
      obtain ⟨-, hchanges⟩ := hroot { session with usage := .none } _ _ hfrom
      exact ⟨trivial, hchanges⟩

end Build

end OpenApi
