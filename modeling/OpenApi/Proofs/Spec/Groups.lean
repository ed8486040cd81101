/-
  OpenApi.Proofs.Spec.Groups — operations and their groups.

  An operation is put into the group of each of its tags before it is added itself, and a group names its operations by
  identifier only. So that no operation gets lost, groups and operations have to agree: a group lists an identifier just
  if an operation has it together with the tag of the group. One operation added keeps this so (`IndexAgrees.apply`),
  and so does a run of calls, refused ones among them. Main statement: `operationsGrouped_of_run`.
-/
import OpenApi.Proofs.Spec.Runs

namespace OpenApi.Spec

variable {s t : Spec} {apis : List Api} {tag tag' id id' : String}

/-! ## §1. Groups. -/

/-- The group of the tag lists the identifier. -/
def Listed (tag id : String) (apis : List Api) : Prop := ∃ a ∈ apis, a.tag = tag ∧ id ∈ a.operationIds

/-- Groups ascend by tag, and each lists its identifiers in ascending order. -/
structure Ascending (apis : List Api) : Prop where
  tags : (apis.map Api.tag).Pairwise (· < ·)
  ids : ∀ a ∈ apis, a.operationIds.Pairwise (· < ·)

theorem listed_cons {a : Api} : Listed tag id (a :: apis) ↔ (a.tag = tag ∧ id ∈ a.operationIds) ∨ Listed tag id apis := by
  simp [Listed]

/-- Grouping an identifier under a tag lists just that in addition. -/
theorem listed_groupUnder :
    Listed tag id (groupUnder id' tag' apis) ↔ (tag' = tag ∧ id = id') ∨ Listed tag id apis := by
  induction apis with
  | nil => simp [groupUnder, Listed]
  | cons a rest ih =>
    unfold groupUnder
    by_cases hlt : tag' < a.tag
    · rw [if_pos hlt, listed_cons, List.mem_singleton]
    · by_cases heq : tag' = a.tag
      · rw [if_neg hlt, if_pos heq, listed_cons, listed_cons, Text.mem_insertOrdered, heq]
        tauto
      · rw [if_neg hlt, if_neg heq, listed_cons, listed_cons, ih]
        tauto

/-- The tags of groups after one identifier was put under a tag. -/
theorem mem_tags_groupUnder :
    tag ∈ (groupUnder id' tag' apis).map Api.tag ↔ tag = tag' ∨ tag ∈ apis.map Api.tag := by
  induction apis with
  | nil => simp [groupUnder]
  | cons a rest ih =>
    unfold groupUnder
    by_cases hlt : tag' < a.tag
    · simp [hlt]
    · by_cases heq : tag' = a.tag
      · simp [heq]
      · rw [if_neg hlt, if_neg heq, List.map_cons, List.mem_cons, ih, List.map_cons, List.mem_cons]
        tauto

/-- Grouping keeps groups and their identifiers ascending. -/
theorem Ascending.groupUnder (h : Ascending apis) (id tag : String) : Ascending (groupUnder id tag apis) := by
  induction apis with
  | nil => exact ⟨by simp [Spec.groupUnder], by simp [Spec.groupUnder]⟩
  | cons a rest ih =>
    have htags := h.tags
    rw [List.map_cons, List.pairwise_cons] at htags
    obtain ⟨hfirst, hrest⟩ := htags
    have hids : a.operationIds.Pairwise (· < ·) := h.ids a List.mem_cons_self
    have htail : Ascending (Spec.groupUnder id tag rest) :=
      ih ⟨hrest, fun b hb => h.ids b (List.mem_cons_of_mem _ hb)⟩
    unfold Spec.groupUnder
    by_cases hlt : tag < a.tag
    · -- a new group in front
      rw [if_pos hlt]
      refine ⟨List.pairwise_cons.2 ⟨?_, h.tags⟩, ?_⟩
      · intro x hx
        rcases List.mem_cons.1 hx with rfl | hx
        · exact hlt
        · exact lt_trans hlt (hfirst x hx)
      · intro b hb
        rcases List.mem_cons.1 hb with rfl | hb
        · exact List.pairwise_singleton _ _
        · exact h.ids b hb
    · by_cases heq : tag = a.tag
      · -- the first group gets the identifier
        rw [if_neg hlt, if_pos heq, heq]
        refine ⟨h.tags, ?_⟩
        intro b hb
        rcases List.mem_cons.1 hb with rfl | hb
        · exact Text.pairwise_insertOrdered hids
        · exact h.ids b (List.mem_cons_of_mem _ hb)
      · -- a later group gets it
        rw [if_neg hlt, if_neg heq]
        refine ⟨List.pairwise_cons.2 ⟨?_, htail.tags⟩, ?_⟩
        · intro x hx
          rcases mem_tags_groupUnder.1 hx with rfl | hx
          · exact lt_of_le_of_ne (not_lt.1 hlt) (Ne.symm heq)
          · exact hfirst x hx
        · intro b hb
          rcases List.mem_cons.1 hb with rfl | hb
          · exact hids
          · exact htail.ids b hb

/-- Under all tags of an operation its identifier is listed in addition. -/
theorem listed_foldl (id' : String) (tags : List String) : ∀ apis,
    Listed tag id (tags.foldl (fun apis tag => groupUnder id' tag apis) apis) ↔
      (tag ∈ tags ∧ id = id') ∨ Listed tag id apis := by
  induction tags with
  | nil => simp
  | cons first rest ih =>
    intro apis
    rw [List.foldl_cons, ih, listed_groupUnder, List.mem_cons]
    tauto

theorem Ascending.foldl (id : String) (tags : List String) : ∀ {apis}, Ascending apis →
    Ascending (tags.foldl (fun apis tag => Spec.groupUnder id tag apis) apis) := by
  induction tags with
  | nil => exact fun h => h
  | cons first rest ih => exact fun h => ih (h.groupUnder id first)

/-- Where tags ascend, the group that a tag finds is the only one with the tag. -/
theorem api?_eq_some (hs : Ascending s.apis) {a : Api} : s.api? tag = some a ↔ a ∈ s.apis ∧ a.tag = tag := by
  have hdistinct : (s.apis.map Api.tag).Nodup := hs.tags.imp fun h => ne_of_lt h
  constructor
  · exact Keyed.find?_eq_some
  · rintro ⟨ha, rfl⟩
    exact Keyed.find?_key_of_mem hdistinct ha

/-! ## §2. One call. -/

/-- Groups and operations agree. -/
structure IndexAgrees (s : Spec) : Prop where
  ascending : Ascending s.apis
  distinct : s.ids.Nodup
  listed : ∀ tag id, Listed tag id s.apis ↔ ∃ o ∈ s.operations, o.operationId = id ∧ tag ∈ o.tags

/-- A call that adds no operation leaves operations and groups as they are. -/
theorem apply_frame {c : Change} (h : s.apply c = .ok t) (hc : c.operation? = none) :
    t.operations = s.operations ∧ t.apis = s.apis := by
  cases c with
  | operation o => exact absurd hc nofun
  | model file m => rw [(addModel_ok h).2]; exact ⟨rfl, rfl⟩
  | describe | reference | securityScheme => rw [← Except.ok.inj h]; exact ⟨rfl, rfl⟩

/-- An accepted operation keeps groups and operations in agreement. -/
theorem IndexAgrees.addOperation (hs : s.IndexAgrees) {o : Operation} (h : s.addOperation o = .ok t) :
    t.IndexAgrees := by
  have hnew : o.operationId ∉ s.ids := by
    intro hmem
    obtain ⟨e, he⟩ := addOperation_eq_error.2 hmem
    exact absurd (h.symm.trans he) nofun
  rw [addOperation_ok h]
  refine ⟨hs.ascending.foldl _ _, ?_, ?_⟩
  · show (List.map Operation.operationId (s.operations ++ [o])).Nodup
    rw [List.map_append, List.map_singleton]
    refine List.nodup_append.2 ⟨hs.distinct, List.nodup_singleton _, ?_⟩
    rintro a ha b hb rfl
    exact hnew (List.mem_singleton.1 hb ▸ ha)
  · intro tag id
    -- an identifier is listed under a tag by the new operation or by an earlier one
    show Listed tag id (o.tags.foldl (fun apis tag => groupUnder o.operationId tag apis) s.apis) ↔
      ∃ o' ∈ s.operations ++ [o], o'.operationId = id ∧ tag ∈ o'.tags
    rw [listed_foldl, hs.listed]
    constructor
    · rintro (⟨htag, rfl⟩ | ⟨o', ho', hid, htag⟩)
      · exact ⟨o, by simp, rfl, htag⟩
      · exact ⟨o', by simp [ho'], hid, htag⟩
    · rintro ⟨o', ho', hid, htag⟩
      rcases List.mem_append.1 ho' with ho' | ho'
      · exact .inr ⟨o', ho', hid, htag⟩
      · obtain rfl : o' = o := List.mem_singleton.1 ho'
        exact .inl ⟨htag, hid.symm⟩

theorem IndexAgrees.apply (hs : s.IndexAgrees) {c : Change} (h : s.apply c = .ok t) : t.IndexAgrees := by
  cases hc : c.operation? with
  | some o =>
    rw [Change.operation?_eq_some.1 hc] at h
    exact hs.addOperation h
  | none =>
    obtain ⟨hoperations, hapis⟩ := apply_frame h hc
    refine ⟨hapis ▸ hs.ascending, ?_, ?_⟩
    · unfold ids
      rw [hoperations]
      exact hs.distinct
    · rw [hoperations, hapis]
      exact hs.listed

/-! ## §3. Runs of calls. -/

theorem indexAgrees_empty (entryFile : String) : (empty entryFile).IndexAgrees where
  ascending := ⟨List.Pairwise.nil, fun _ ha => absurd ha List.not_mem_nil⟩
  distinct := List.nodup_nil
  listed _ _ := by simp [empty, Listed]

/-- Changes that are all accepted keep groups and operations in agreement. -/
theorem IndexAgrees.applyAll (changes : List Change) : ∀ {s t : Spec}, s.IndexAgrees →
    s.applyAll changes = .ok t → t.IndexAgrees := by
  induction changes with
  | nil =>
    intro s t hs h
    rw [← Except.ok.inj h]
    exact hs
  | cons c changes ih =>
    intro s t hs h
    obtain ⟨mid, hc, h⟩ := Outcome.bind_eq_ok.1 h
    exact ih (hs.apply hc) h

/-- A run keeps groups and operations in agreement, whichever of its calls are refused. -/
theorem IndexAgrees.run (calls : List Change) : ∀ {s : Spec}, s.IndexAgrees → (s.run calls).IndexAgrees := by
  induction calls with
  | nil => exact fun hs => hs
  | cons c calls ih =>
    intro s hs
    rw [run_cons]
    cases h : s.apply c with
    | ok t =>
      rw [after_of_ok h]
      exact ih (hs.apply h)
    | error e =>
      rw [after_of_error h]
      exact ih hs

/-- What users of operations and groups rely on. -/
structure OperationsGrouped (s : Spec) : Prop where
  /-- No two operations have one identifier. -/
  distinct : s.ids.Nodup
  /-- The group of a tag lists just the operations with the tag. -/
  listed : ∀ tag id, (∃ a, s.api? tag = some a ∧ id ∈ a.operationIds) ↔
    ∃ o, s.operation? id = some o ∧ tag ∈ o.tags
  /-- The operations of a group ascend by identifier. -/
  ascending : ∀ tag a, s.api? tag = some a → ((s.operationsOf a).map Operation.operationId).Pairwise (· < ·)
  /-- They are one for each identifier of the group. -/
  complete : ∀ tag a, s.api? tag = some a → (s.operationsOf a).map Operation.operationId = a.operationIds

/-- Every identifier of a group is that of an operation. -/
theorem IndexAgrees.map_operationsOf (hs : s.IndexAgrees) {a : Api} (ha : a ∈ s.apis) :
    (s.operationsOf a).map Operation.operationId = a.operationIds := by
  have hfound : ∀ id ∈ a.operationIds, (s.operation? id).map Operation.operationId = some id := by
    intro id hid
    obtain ⟨o, ho, hoid, -⟩ := (hs.listed a.tag id).1 ⟨a, ha, rfl, hid⟩
    rw [(operation?_eq_some hs.distinct).2 ⟨ho, hoid⟩, Option.map_some, hoid]
  unfold operationsOf
  rw [List.map_filterMap, List.filterMap_congr hfound, List.filterMap_some]

theorem IndexAgrees.operationsGrouped (hs : s.IndexAgrees) : s.OperationsGrouped where
  distinct := hs.distinct
  listed tag id := by
    have hgroups : (∃ a, s.api? tag = some a ∧ id ∈ a.operationIds) ↔ Listed tag id s.apis := by
      simp only [api?_eq_some hs.ascending, Listed, and_assoc]
    have hoperations : (∃ o, s.operation? id = some o ∧ tag ∈ o.tags) ↔
        ∃ o ∈ s.operations, o.operationId = id ∧ tag ∈ o.tags := by
      simp only [operation?_eq_some hs.distinct, and_assoc]
    rw [hgroups, hoperations]
    exact hs.listed tag id
  ascending tag a ha := by
    have hmem : a ∈ s.apis := ((api?_eq_some hs.ascending).1 ha).1
    rw [hs.map_operationsOf hmem]
    exact hs.ascending.ids a hmem
  complete tag a ha := hs.map_operationsOf ((api?_eq_some hs.ascending).1 ha).1

/-- **Operations and their groups agree at the end of every run of calls.** The operations are the accepted ones in
their order; and a call to add an operation fails just if its identifier is taken, which is so just if an earlier call
came with it, and then changes nothing. -/
theorem operationsGrouped_of_run (entryFile : String) (calls : List Change) :
    let s := (empty entryFile).run calls
    s.OperationsGrouped ∧
      s.operations = ((empty entryFile).accepted calls).filterMap Change.operation? ∧
      ∀ o : Operation,
        ((∃ e, s.addOperation o = .error e) ↔ (s.operation? o.operationId).isSome = true) ∧
          ((s.operation? o.operationId).isSome = true ↔
            ∃ o', .operation o' ∈ calls ∧ o'.operationId = o.operationId) ∧
          ((s.operation? o.operationId).isSome = true → s.after (.operation o) = s) := by
  intro s
  have hagrees : s.IndexAgrees := (indexAgrees_empty entryFile).run calls
  refine ⟨hagrees.operationsGrouped, operations_run _ calls, ?_⟩
  intro o
  -- refusal, lookup and history say the same: the identifier is taken
  rw [addOperation_eq_error, operation?_isSome]
  refine ⟨Iff.rfl, ?_, ?_⟩
  · have hnone : o.operationId ∉ (empty entryFile).ids := List.not_mem_nil
    rw [mem_ids_run (inStep_empty entryFile)]
    simp only [hnone, false_or]
  · intro htaken
    obtain ⟨e, he⟩ := addOperation_eq_error.2 htaken
    exact after_of_error (c := .operation o) he

end OpenApi.Spec
