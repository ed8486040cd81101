/-
  OpenApi.Proofs.Spec.Runs — runs of calls, some of which are refused.

  A spec is used by one call after the other, and a call that is refused leaves the spec as it is. So the spec at the
  end of a run is the one that the accepted calls alone make (`applyAll_accepted`), and it is known from the calls
  which names are taken by then (`mem_names_run`, `mem_ids_run`).
-/
import OpenApi.Proofs.Keyed
import OpenApi.Proofs.Spec.Changes

namespace OpenApi.Spec

variable {s t : Spec} {c : Change} {calls more : List Change}

/-! ## §1. Calls. -/

/-- The spec after a call. One that is refused leaves it as it is. -/
def after (s : Spec) (c : Change) : Spec :=
  match s.apply c with
  | .ok t => t
  | .error _ => s

/-- The spec after calls, one after the other. -/
def run (s : Spec) (calls : List Change) : Spec := calls.foldl after s

/-- The calls that are accepted. -/
def accepted (s : Spec) : List Change → List Change
  | [] => []
  | c :: calls =>
    match s.apply c with
    | .ok t => c :: t.accepted calls
    | .error _ => s.accepted calls

theorem run_cons (s : Spec) (c : Change) (calls : List Change) : s.run (c :: calls) = (s.after c).run calls := rfl

theorem run_append (s : Spec) (calls more : List Change) : s.run (calls ++ more) = (s.run calls).run more :=
  List.foldl_append

theorem after_of_ok (h : s.apply c = .ok t) : s.after c = t := by
  unfold after
  rw [h]

theorem after_of_error {e : Error} (h : s.apply c = .error e) : s.after c = s := by
  unfold after
  rw [h]

/-- **The accepted calls alone make the same spec.** -/
theorem applyAll_accepted (calls : List Change) : ∀ s : Spec, s.applyAll (s.accepted calls) = .ok (s.run calls) := by
  induction calls with
  | nil =>
    intro s
    rfl
  | cons c calls ih =>
    intro s
    unfold accepted
    cases h : s.apply c with
    | ok t =>
      have hstep : s.applyAll (c :: t.accepted calls) = t.applyAll (t.accepted calls) := by
        rw [applyAll_cons, h]
        rfl
      rw [run_cons, after_of_ok h]
      exact hstep.trans (ih t)
    | error e =>
      rw [run_cons, after_of_error h]
      exact ih s

/-- Calls are accepted in their order. -/
theorem accepted_sublist (calls : List Change) : ∀ s : Spec, (s.accepted calls).Sublist calls := by
  induction calls with
  | nil => exact fun _ => .slnil
  | cons c calls ih =>
    intro s
    unfold accepted
    cases h : s.apply c with
    | ok t => exact (ih t).cons_cons c
    | error e => exact (ih s).cons c

/-- A run that starts without content makes a spec. -/
theorem made_run (entryFile : String) (calls : List Change) : ((empty entryFile).run calls).Made :=
  ⟨entryFile, _, applyAll_accepted calls _⟩

/-- The spec that these models make, of which those are refused whose name is taken. -/
def ofModels (entryFile : String) (models : List Declared) : Spec :=
  (empty entryFile).run (models.map fun d => .model d.file d.model)

theorem made_ofModels (entryFile : String) (models : List Declared) : (ofModels entryFile models).Made :=
  made_run entryFile _

theorem InStep.run (hs : s.InStep) (calls : List Change) : (s.run calls).InStep :=
  hs.applyAll (applyAll_accepted calls s)

theorem models_run (hs : s.InStep) (calls : List Change) :
    (s.run calls).models = s.models ++ (s.accepted calls).filterMap Change.declared? :=
  applyAll_models hs.files (applyAll_accepted calls s)

theorem operations_run (s : Spec) (calls : List Change) :
    (s.run calls).operations = s.operations ++ (s.accepted calls).filterMap Change.operation? :=
  applyAll_operations (applyAll_accepted calls s)

theorem InStep.after (hs : s.InStep) (c : Change) : (s.after c).InStep := hs.run [c]

/-- What every call adds, accepted or not, is what a run of them adds. -/
theorem mem_run {α : Type} {taken : Spec → List α} {own : Change → Option α}
    (hstep : ∀ s, s.InStep → ∀ c x, x ∈ taken (after s c) ↔ x ∈ taken s ∨ own c = some x) {x : α}
    (calls : List Change) : ∀ {s : Spec}, s.InStep →
      (x ∈ taken (s.run calls) ↔ x ∈ taken s ∨ ∃ c ∈ calls, own c = some x) := by
  induction calls with
  | nil =>
    intro s _
    simp [run]
  | cons c calls ih =>
    intro s hs
    rw [run_cons, ih (hs.after c), hstep s hs, or_assoc, List.exists_mem_cons_iff]

/-! ## §2. Names that are taken. -/

/-- A model is refused just if its name is taken, whatever file declares it. -/
theorem addModel_eq_error (hs : s.InStep) {file : String} {m : Model} :
    (∃ e, s.addModel file m = .error e) ↔ m.name ∈ s.names := by
  rw [← hs.declares_iff]
  cases h : s.declares m.name with
  | true => simp [addModel_of_taken h]
  | false => simp [addModel_of_free h]

/-- By the end of a call its own name is taken, and no other one in addition. -/
theorem mem_names_after (hs : s.InStep) (c : Change) (name : String) :
    name ∈ (s.after c).names ↔ name ∈ s.names ∨ c.declared?.map (fun d => d.model.name) = some name := by
  cases h : s.apply c with
  | ok t =>
    rw [after_of_ok h]
    unfold names
    rw [(apply_ok h).1, List.map_append, List.mem_append]
    cases c with
    | model file m => simp [Change.declared?, eq_comm]
    | describe | reference | operation | securityScheme => simp [Change.declared?]
  | error e =>
    rw [after_of_error h]
    -- only a model can be refused for its name, which then is there already
    cases c with
    | model file m =>
      have htaken : m.name ∈ s.names := (addModel_eq_error hs).1 ⟨e, h⟩
      constructor
      · exact .inl
      · rintro (hname | hname)
        · exact hname
        · exact Option.some.inj hname ▸ htaken
    | describe | reference | operation | securityScheme => simp [Change.declared?]

/-- The names that are taken by the end of a run are those that some call declares, accepted or not. -/
theorem mem_names_run {name : String} (hs : s.InStep) (calls : List Change) :
    name ∈ (s.run calls).names ↔ name ∈ s.names ∨ ∃ file m, .model file m ∈ calls ∧ m.name = name := by
  rw [mem_run (fun s hs c name => mem_names_after hs c name) calls hs]
  refine or_congr_right ⟨?_, ?_⟩
  · rintro ⟨c, hc, hname⟩
    obtain ⟨d, hd, hname⟩ := Option.map_eq_some_iff.1 hname
    rw [Change.declared?_eq_some.1 hd] at hc
    exact ⟨d.file, d.model, hc, hname⟩
  · rintro ⟨file, m, hm, hname⟩
    exact ⟨.model file m, hm, congrArg some hname⟩

/-! ## §3. Identifiers that are taken. -/

/-- The identifiers of the operations, in the order in which these were added. -/
def ids (s : Spec) : List String := s.operations.map Operation.operationId

/-- Where identifiers are distinct, an operation is found just if it is there and has the identifier. -/
theorem operation?_eq_some {id : String} {o : Operation} (hs : s.ids.Nodup) :
    s.operation? id = some o ↔ o ∈ s.operations ∧ o.operationId = id := by
  constructor
  · exact Keyed.find?_eq_some
  · rintro ⟨ho, rfl⟩
    exact Keyed.find?_key_of_mem hs ho

theorem operation?_isSome {id : String} : (s.operation? id).isSome = true ↔ id ∈ s.ids := by
  unfold operation? Keyed.find? ids
  simp [List.find?_isSome]

/-- An operation is refused just if its identifier is taken. -/
theorem addOperation_eq_error {o : Operation} : (∃ e, s.addOperation o = .error e) ↔ o.operationId ∈ s.ids := by
  rw [← operation?_isSome]
  unfold addOperation
  by_cases h : (s.operation? o.operationId).isSome = true
  · simp [h]
  · simp [h]

/-- By the end of a call its own identifier is taken, and no other one in addition. -/
theorem mem_ids_after (s : Spec) (c : Change) (id : String) :
    id ∈ (s.after c).ids ↔ id ∈ s.ids ∨ c.operation?.map Operation.operationId = some id := by
  cases h : s.apply c with
  | ok t =>
    have hoperations : t.operations = s.operations ++ c.operation?.toList := (apply_ok h).2.1
    rw [after_of_ok h]
    unfold ids
    rw [hoperations, List.map_append, List.mem_append]
    cases c with
    | operation o => simp [Change.operation?, eq_comm]
    | describe | model | reference | securityScheme => simp [Change.operation?]
  | error e =>
    rw [after_of_error h]
    -- only an operation can be refused for its identifier, which then is there already
    cases c with
    | operation o =>
      have htaken : o.operationId ∈ s.ids := addOperation_eq_error.1 ⟨e, h⟩
      constructor
      · exact .inl
      · rintro (hid | hid)
        · exact hid
        · exact Option.some.inj hid ▸ htaken
    | describe | model | reference | securityScheme => simp [Change.operation?]

/-- The identifiers that are taken by the end of a run are those of its operations, accepted or not. -/
theorem mem_ids_run {id : String} (hs : s.InStep) (calls : List Change) :
    id ∈ (s.run calls).ids ↔ id ∈ s.ids ∨ ∃ o, .operation o ∈ calls ∧ o.operationId = id := by
  rw [mem_run (fun s _ c id => mem_ids_after s c id) calls hs]
  refine or_congr_right ⟨?_, ?_⟩
  · rintro ⟨c, hc, hid⟩
    obtain ⟨o, ho, hid⟩ := Option.map_eq_some_iff.1 hid
    rw [Change.operation?_eq_some.1 ho] at hc
    exact ⟨o, hc, hid⟩
  · rintro ⟨o, ho, hid⟩
    exact ⟨.operation o, ho, congrArg some hid⟩

end OpenApi.Spec
