/-
  OpenApi.Proofs.Spec.Changes — the specs that can be made, and how they grow.

  A spec starts without content and changes by its own operations: a model, a reference, an operation or a
  security scheme is added, or it is described anew. A refused addition changes nothing, so it is no change.
  What a spec holds is told by the list of changes that made it (`applyAll_models`, `applyAll_operations`,
  `mem_applyAll_references`), and the names of its models are distinct (`Made.namesDistinct`).
-/
import Mathlib.Data.List.Induction
import Mathlib.Data.List.Nodup
import OpenApi.Proofs.Spec.Tables

namespace OpenApi

/-! ## §1. Changes. -/

/-- One change of a spec: an addition, or another description. -/
inductive Change
  | describe (info : Info) (servers : List Server)
  | model (file : String) (model : Model)
  | reference (r : SchemaRef)
  | operation (o : Operation)
  | securityScheme (scheme : SecurityScheme)

namespace Change

/-- The model that a change adds. -/
def declared? : Change → Option Declared
  | model file m => some ⟨file, m⟩
  | _ => none

/-- The operation that a change adds. -/
def operation? : Change → Option Operation
  | operation o => some o
  | _ => none

/-- The reference text that a change records. -/
def reference? : Change → Option String
  | reference r => some r.reference
  | _ => none

theorem declared?_eq_some {c : Change} {d : Declared} :
    c.declared? = some d ↔ c = .model d.file d.model := by
  cases c with
  | model file m =>
    cases d
    simp [declared?]
  | describe | reference | operation | securityScheme => simp [declared?]

/-- The models that changes declare are those that they add. -/
theorem mem_declared {changes : List Change} {d : Declared} :
    d ∈ changes.filterMap declared? ↔ .model d.file d.model ∈ changes := by
  rw [List.mem_filterMap]
  constructor
  · rintro ⟨c, hc, hdeclares⟩
    rwa [declared?_eq_some.1 hdeclares] at hc
  · exact fun hc => ⟨_, hc, declared?_eq_some.2 rfl⟩

theorem operation?_eq_some {c : Change} {o : Operation} : c.operation? = some o ↔ c = .operation o := by
  cases c with
  | operation o' => simp [operation?]
  | describe | model | reference | securityScheme => simp [operation?]

end Change

namespace Spec

/-- Makes one change, unless it is refused. -/
def apply (s : Spec) : Change → Except Error Spec
  | .describe info servers => .ok { s with info, servers }
  | .model file m => s.addModel file m
  | .reference r => .ok (s.addReference r)
  | .operation o => s.addOperation o
  | .securityScheme scheme => .ok (s.addSecurityScheme scheme)

/-- Makes changes one after the other, unless one is refused. -/
def applyAll (s : Spec) (changes : List Change) : Except Error Spec := changes.foldlM apply s

theorem applyAll_cons (s : Spec) (c : Change) (changes : List Change) :
    s.applyAll (c :: changes) = s.apply c >>= fun t => t.applyAll changes := rfl

theorem applyAll_append (s : Spec) (changes more : List Change) :
    s.applyAll (changes ++ more) = s.applyAll changes >>= fun t => t.applyAll more :=
  List.foldlM_append

/-- Changes that are made after others are changes as well. -/
theorem applyAll_trans {s t u : Spec} {changes more : List Change} (h : s.applyAll changes = .ok t)
    (h' : t.applyAll more = .ok u) : s.applyAll (changes ++ more) = .ok u := by
  rw [applyAll_append, h]
  exact h'

/-- What an accepted operation does to a spec. -/
theorem addOperation_ok {s t : Spec} {o : Operation} (h : s.addOperation o = .ok t) :
    t = { s with
      operations := s.operations ++ [o]
      apis := o.tags.foldl (fun apis tag => groupUnder o.operationId tag apis) s.apis } := by
  unfold addOperation at h
  split at h
  next => exact absurd h (by simp)
  next => simpa using h.symm

/-! ## §2. What changes add. -/

/-- A change adds its own model, operation and reference, and nothing else of the kind. -/
theorem apply_ok {s t : Spec} {c : Change} (h : s.apply c = .ok t) :
    t.arena = s.arena ++ (c.declared?.map Declared.model).toList ∧ t.operations = s.operations ++ c.operation?.toList ∧
      ∀ text, text ∈ t.references ↔ c.reference? = some text ∨ text ∈ s.references := by
  cases c with
  | model file m =>
    rw [(addModel_ok h).2]
    simp [Change.declared?, Change.operation?, Change.reference?, withModel]
  | operation o =>
    rw [addOperation_ok h]
    simp [Change.declared?, Change.operation?, Change.reference?]
  | reference r =>
    rw [← Except.ok.inj h]
    simp [Change.declared?, Change.operation?, Change.reference?, addReference, Text.mem_insertOrdered,
      eq_comm]
  | describe | securityScheme =>
    rw [← Except.ok.inj h]
    simp [Change.declared?, Change.operation?, Change.reference?, addSecurityScheme]

/-- A change adds a model and its file, or neither of them. -/
theorem apply_models {s t : Spec} {c : Change} (h : s.apply c = .ok t) :
    t.modelFiles.length + s.arena.length = s.modelFiles.length + t.arena.length ∧
      (s.modelFiles.length = s.arena.length → t.models = s.models ++ c.declared?.toList) := by
  cases c with
  | model file m =>
    rw [(addModel_ok h).2]
    refine ⟨?_, models_withModel⟩
    rw [modelFiles_withModel, arena_withModel, List.length_append, List.length_append, List.length_singleton,
      List.length_singleton]
    omega
  | operation o =>
    rw [addOperation_ok h]
    exact ⟨rfl, fun _ => (List.append_nil _).symm⟩
  | describe | reference | securityScheme =>
    rw [← Except.ok.inj h]
    exact ⟨rfl, fun _ => (List.append_nil _).symm⟩

/-- Where there is a file for each model, the models that changes add stand in their order at the end. -/
theorem applyAll_models {changes : List Change} :
    ∀ {s t : Spec}, s.modelFiles.length = s.arena.length → s.applyAll changes = .ok t →
      t.models = s.models ++ changes.filterMap Change.declared? := by
  induction changes with
  | nil =>
    intro s t hs h
    rw [← Except.ok.inj h, List.filterMap_nil, List.append_nil]
  | cons c changes ih =>
    intro s t hs h
    obtain ⟨mid, hc, h⟩ := Outcome.bind_eq_ok.1 h
    obtain ⟨hlengths, hmodels⟩ := apply_models hc
    have hmid : mid.modelFiles.length = mid.arena.length := by omega
    rw [ih hmid h, hmodels hs, List.append_assoc]
    cases hd : c.declared? with
    | none => simp [hd]
    | some d => simp [hd]

/-- There is a file for each model after changes just if there was before. -/
theorem applyAll_files {changes : List Change} :
    ∀ {s t : Spec}, s.applyAll changes = .ok t →
      (t.modelFiles.length = t.arena.length ↔ s.modelFiles.length = s.arena.length) := by
  induction changes with
  | nil =>
    intro s t h
    rw [← Except.ok.inj h]
  | cons c changes ih =>
    intro s t h
    obtain ⟨mid, hc, h⟩ := Outcome.bind_eq_ok.1 h
    have hlengths := (apply_models hc).1
    rw [ih h]
    omega

/-- A change keeps tables in step. -/
theorem InStep.apply {s t : Spec} {c : Change} (hs : s.InStep) (h : s.apply c = .ok t) : t.InStep := by
  cases c with
  | model file m =>
    rw [(addModel_ok h).2]
    exact hs.withModel file m
  | operation o =>
    rw [addOperation_ok h]
    exact ⟨hs.files, hs.named, hs.names, hs.placed, hs.places⟩
  | describe | reference | securityScheme =>
    rw [← Except.ok.inj h]
    exact ⟨hs.files, hs.named, hs.names, hs.placed, hs.places⟩

/-- **Changes keep tables in step.** -/
theorem InStep.applyAll {changes : List Change} :
    ∀ {s t : Spec}, s.InStep → s.applyAll changes = .ok t → t.InStep := by
  induction changes with
  | nil =>
    intro s t hs h
    rwa [← Except.ok.inj h]
  | cons c changes ih =>
    intro s t hs h
    obtain ⟨mid, hc, h⟩ := Outcome.bind_eq_ok.1 h
    exact ih (hs.apply hc) h

theorem applyAll_arena {changes : List Change} :
    ∀ {s t : Spec}, s.applyAll changes = .ok t →
      t.arena = s.arena ++ (changes.filterMap Change.declared?).map Declared.model := by
  induction changes with
  | nil =>
    intro s t h
    rw [← Except.ok.inj h, List.filterMap_nil, List.map_nil, List.append_nil]
  | cons c changes ih =>
    intro s t h
    obtain ⟨mid, hc, h⟩ := Outcome.bind_eq_ok.1 h
    rw [ih h, (apply_ok hc).1, List.append_assoc]
    cases hd : c.declared? with
    | none => simp [hd]
    | some d => simp [hd]

theorem applyAll_operations {changes : List Change} :
    ∀ {s t : Spec}, s.applyAll changes = .ok t →
      t.operations = s.operations ++ changes.filterMap Change.operation? := by
  induction changes with
  | nil =>
    intro s t h
    rw [← Except.ok.inj h, List.filterMap_nil, List.append_nil]
  | cons c changes ih =>
    intro s t h
    obtain ⟨mid, hc, h⟩ := Outcome.bind_eq_ok.1 h
    rw [ih h, (apply_ok hc).2.1, List.append_assoc]
    cases ho : c.operation? with
    | none => simp [ho]
    | some o => simp [ho]

theorem mem_applyAll_references {changes : List Change} :
    ∀ {s t : Spec}, s.applyAll changes = .ok t →
      ∀ text, text ∈ t.references ↔ text ∈ changes.filterMap Change.reference? ∨ text ∈ s.references := by
  induction changes with
  | nil =>
    intro s t h text
    rw [← Except.ok.inj h]
    simp
  | cons c changes ih =>
    intro s t h text
    obtain ⟨mid, hc, h⟩ := Outcome.bind_eq_ok.1 h
    rw [ih h, (apply_ok hc).2.2]
    cases hr : c.reference? with
    | none => simp [hr]
    | some x =>
      simp only [hr, List.filterMap_cons_some, List.mem_cons, Option.some.injEq, eq_comm]
      tauto

/-- Models stay under their names. -/
theorem modelNamed?_applyAll {name : String} {m : Model} {changes : List Change} :
    ∀ {s t : Spec}, s.applyAll changes = .ok t → s.modelNamed? name = some m → t.modelNamed? name = some m := by
  induction changes with
  | nil =>
    intro s t h hm
    rwa [← Except.ok.inj h]
  | cons c changes ih =>
    intro s t h hm
    obtain ⟨mid, hc, h⟩ := Outcome.bind_eq_ok.1 h
    refine ih h ?_
    cases c with
    | model file m' =>
      obtain ⟨hfree, rfl⟩ := addModel_ok hc
      exact modelNamed?_withModel_of_free hfree hm
    | operation o =>
      rw [addOperation_ok hc]
      exact hm
    | describe | reference | securityScheme =>
      rw [← Except.ok.inj hc]
      exact hm

/-! ## §3. Specs that were made. -/

/-- The specs that changes make of a spec without content. -/
def Made (s : Spec) : Prop := ∃ file changes, (empty file).applyAll changes = .ok s

/-- No two models share a name. -/
def NamesDistinct (s : Spec) : Prop := s.names.Nodup

/-- The files that declare models are named without number sign. -/
def FilesPlain (s : Spec) : Prop := ∀ d ∈ s.models, '#' ∉ d.file.toList

/-- The names of the models that changes add. -/
def addedNames (changes : List Change) : List String :=
  (changes.filterMap Change.declared?).map fun d => d.model.name

theorem addedNames_append (changes more : List Change) :
    addedNames (changes ++ more) = addedNames changes ++ addedNames more := by
  simp [addedNames]

/-- The names that are taken later were taken before, or are those of models that were added. -/
theorem mem_modelNames_applyAll {name : String} {changes : List Change} :
    ∀ {s t : Spec}, s.applyAll changes = .ok t → name ∈ t.modelNames →
      name ∈ s.modelNames ∨ name ∈ addedNames changes := by
  induction changes with
  | nil =>
    intro s t h hname
    rw [← Except.ok.inj h] at hname
    exact .inl hname
  | cons c changes ih =>
    intro s t h hname
    obtain ⟨mid, hc, h⟩ := Outcome.bind_eq_ok.1 h
    rw [← List.singleton_append, addedNames_append, List.mem_append]
    rcases ih h hname with hname | hname
    · rw [← or_assoc]
      refine .inl ?_
      cases c with
      | model file m =>
        rw [(addModel_ok hc).2, mem_modelNames_withModel] at hname
        exact hname.symm.imp_right fun hnew => List.mem_singleton.2 hnew.symm
      | operation o =>
        rw [addOperation_ok hc] at hname
        exact .inl hname
      | describe | reference | securityScheme =>
        rw [← Except.ok.inj hc] at hname
        exact .inl hname
    · exact .inr (.inr hname)

theorem names_of_applyAll {s t : Spec} {changes : List Change} (h : s.applyAll changes = .ok t) :
    t.names = s.names ++ addedNames changes := by
  unfold names addedNames
  rw [applyAll_arena h, List.map_append, List.map_map]
  rfl

/-- The tables of a spec that was made are in step. -/
theorem Made.inStep {s : Spec} (hs : s.Made) : s.InStep := by
  obtain ⟨file, changes, h⟩ := hs
  exact (inStep_empty file).applyAll h

/-- Where names are distinct, a name tells which model it is. -/
theorem NamesDistinct.eq_of_name_eq {s : Spec} (hs : s.NamesDistinct) {a b : Model}
    (ha : s.IsDeclared a) (hb : s.IsDeclared b) (h : a.name = b.name) : a = b :=
  List.inj_on_of_nodup_map hs ha hb h

/-- Every change keeps names distinct where tables are in step. -/
theorem apply_namesDistinct {s t : Spec} {c : Change} (hs : s.InStep) (h : s.apply c = .ok t)
    (hdistinct : s.NamesDistinct) : t.NamesDistinct := by
  have hnames : t.names = s.names ++ (c.declared?.map Declared.model).toList.map Model.name := by
    unfold names
    rw [(apply_ok h).1, List.map_append]
  unfold NamesDistinct
  rw [hnames]
  cases c with
  | model file m =>
    have hnew : m.name ∉ s.names := hs.declares_eq_false.1 (addModel_ok h).1
    refine List.nodup_append.2 ⟨hdistinct, List.nodup_singleton _, ?_⟩
    rintro a ha b hb rfl
    exact hnew ((List.mem_singleton.1 hb : a = m.name) ▸ ha)
  | describe | reference | operation | securityScheme =>
    show (s.names ++ []).Nodup
    rw [List.append_nil]
    exact hdistinct

theorem applyAll_namesDistinct {changes : List Change} :
    ∀ {s t : Spec}, s.InStep → s.applyAll changes = .ok t → s.NamesDistinct → t.NamesDistinct := by
  induction changes with
  | nil =>
    intro s t _ h hdistinct
    rw [← Except.ok.inj h]
    exact hdistinct
  | cons c changes ih =>
    intro s t hs h hdistinct
    obtain ⟨mid, hc, h⟩ := Outcome.bind_eq_ok.1 h
    exact ih (hs.apply hc) h (apply_namesDistinct hs hc hdistinct)

/-- **The names of the models of a spec that was made are distinct.** -/
theorem Made.namesDistinct {s : Spec} (hs : s.Made) : s.NamesDistinct := by
  obtain ⟨file, changes, h⟩ := hs
  exact applyAll_namesDistinct (inStep_empty file) h List.nodup_nil

end Spec

end OpenApi
