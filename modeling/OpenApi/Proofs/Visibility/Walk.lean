/-
  OpenApi.Proofs.Visibility.Walk — walks find exactly what can be reached.

  A walk that answers yes has found a way to a property that is required and flagged. One that answers no
  leaves its places clear of the models that it passed, and settles those that it passed first; a model that
  is still being walked counts as passed, so its own places are settled only when its walk ends. The models
  not yet passed become fewer with each model, and as long as there are no more of them than the depth that
  is left the walk ends by itself. Main statement: `has_iff_reaches`.
-/
import OpenApi.Proofs.Visibility.Reach

namespace OpenApi

namespace Spec

variable {s : Spec} {v : Visibility}

/-! ## §1. Models that were not passed. -/

/-- The number of models that a walk has not passed. -/
def unpassed (s : Spec) (passed : List String) : Nat :=
  (s.names.filter fun name => !passed.contains name).length

theorem unpassed_le (s : Spec) (passed : List String) : s.unpassed passed ≤ s.count := by
  calc s.unpassed passed ≤ s.names.length := List.length_filter_le _ _
    _ = s.count := List.length_map _

theorem unpassed_mono (s : Spec) {before after : List String} (h : before ⊆ after) :
    s.unpassed after ≤ s.unpassed before := by
  refine (List.monotone_filter_right _ ?_).length_le
  intro name hname
  simp only [Bool.not_eq_true', List.contains_eq_mem, decide_eq_false_iff_not] at hname ⊢
  exact fun hmem => hname (h hmem)

/-- Passing a model leaves fewer. -/
theorem unpassed_cons {passed : List String} {name : String} (hname : name ∈ s.names)
    (hnew : name ∉ passed) : s.unpassed (name :: passed) < s.unpassed passed := by
  have hsplit : (s.names.filter fun n => !(name :: passed).contains n) =
      (s.names.filter fun n => !passed.contains n).filter fun n => n != name := by
    rw [List.filter_filter]
    refine List.filter_congr fun n _ => ?_
    by_cases hn : n = name
    · simp [hn]
    · simp [hn]
  unfold unpassed
  rw [hsplit, List.length_filter_lt_length_iff_exists]
  exact ⟨name, List.mem_filter.2 ⟨hname, by simpa using hnew⟩, by simp⟩

/-! ## §2. What a walk finds. -/

/-- What a walk from the places tells by its answer and by the models that it passed. -/
structure Explored (s : Spec) (v : Visibility) (before after : List String) (places : List Place)
    (answer : Bool) : Prop where
  grows : before ⊆ after
  reached : answer = true → ∃ place ∈ places, s.Reaches v place
  clear : answer = false → ∀ place ∈ places, s.Clear v after place
  settled : answer = false → ∀ m, s.IsDeclared m → m.name ∈ after → m.name ∉ before →
    s.Settled v after m

/-- The walk ends with an answer about the places, if it may go as deep as there are models left. -/
def Explores (s : Spec) (v : Visibility) (depth : Nat) (walk : Walk Bool) (places : List Place) : Prop :=
  ∀ before, s.unpassed before ≤ depth →
    ∃ answer after, walk.run before = .ok (answer, after) ∧
      s.Explored v before after places answer

theorem explores_nil {depth : Nat} : s.Explores v depth (pure false) [] := by
  intro before _
  refine ⟨false, before, rfl, List.Subset.refl _, ?_, ?_, ?_⟩
  · exact fun h => Bool.noConfusion h
  · exact fun _ place hplace => absurd hplace List.not_mem_nil
  · exact fun _ m _ hmem hnot => absurd hmem hnot

theorem explores_true {depth : Nat} {places : List Place} {place : Place} (hplace : place ∈ places)
    (h : s.Reaches v place) : s.Explores v depth (pure true) places := by
  intro before _
  refine ⟨true, before, rfl, List.Subset.refl _, ?_, ?_, ?_⟩
  · exact fun _ => ⟨place, hplace, h⟩
  · exact fun h => Bool.noConfusion h
  · exact fun h => Bool.noConfusion h

/-- A walk that fails to find anything, and then another one. -/
theorem Explored.append {before middle after : List String} {places more : List Place} {answer : Bool}
    (h : s.Explored v before middle places false) (h' : s.Explored v middle after more answer) :
    s.Explored v before after (places ++ more) answer where
  grows := List.Subset.trans h.grows h'.grows
  reached := by
    intro hanswer
    obtain ⟨place, hplace, hreach⟩ := h'.reached hanswer
    exact ⟨place, List.mem_append_right _ hplace, hreach⟩
  clear := by
    intro hanswer place hplace
    rcases List.mem_append.1 hplace with hplace | hplace
    · exact (h.clear rfl place hplace).mono h'.grows
    · exact h'.clear hanswer place hplace
  settled := by
    intro hanswer m hm hmem hnew
    by_cases hmiddle : m.name ∈ middle
    · exact (h.settled rfl m hm hmiddle hnew).mono h'.grows
    · exact h'.settled hanswer m hm hmem hmiddle

/-- One walk and, unless it answers yes, another one. -/
theorem Explores.orElse {depth : Nat} {first second : Walk Bool} {places more : List Place}
    (hfirst : s.Explores v depth first places) (hsecond : s.Explores v depth second more) :
    s.Explores v depth (do if ← first then pure true else second) (places ++ more) := by
  intro before hbefore
  obtain ⟨answer, middle, hrun, hexplored⟩ := hfirst before hbefore
  rw [StateT.run_bind, hrun]
  cases answer with
  | true =>
    refine ⟨true, middle, rfl, hexplored.grows, ?_, ?_, ?_⟩
    · intro _
      obtain ⟨place, hplace, hreach⟩ := hexplored.reached rfl
      exact ⟨place, List.mem_append_left _ hplace, hreach⟩
    · exact fun h => Bool.noConfusion h
    · exact fun h => Bool.noConfusion h
  | false =>
    obtain ⟨answer, after, hrun', hexplored'⟩ :=
      hsecond middle (Nat.le_trans (unpassed_mono s hexplored.grows) hbefore)
    exact ⟨answer, after, hrun', hexplored.append hexplored'⟩

/-- A walk from the places next to a schema is one from the schema. -/
theorem Explores.schema {depth : Nat} {walk : Walk Bool} {places : List Place} {c : Schema}
    (h : s.Explores v depth walk places) (hnext : ∀ b, Step s (.schema c) b ↔ b ∈ places) :
    s.Explores v depth walk [.schema c] := by
  intro before hbefore
  obtain ⟨answer, after, hrun, hexplored⟩ := h before hbefore
  refine ⟨answer, after, hrun, hexplored.grows, ?_, ?_, hexplored.settled⟩
  · intro hanswer
    obtain ⟨place, hplace, hreach⟩ := hexplored.reached hanswer
    exact ⟨_, List.mem_singleton_self _, hreach.of_step ((hnext place).2 hplace)⟩
  · intro hanswer place hplace
    rw [List.mem_singleton.1 hplace]
    exact .schema fun b hb => hexplored.clear hanswer b ((hnext b).1 hb)

/-- A walk from the schema of a property that is not left out itself is one from the property. -/
theorem Explores.property {depth : Nat} {walk : Walk Bool} {p : Property}
    (h : s.Explores v depth walk [.schema p.schema]) (homits : v.omits p = false) :
    s.Explores v depth walk [.property p] := by
  intro before hbefore
  obtain ⟨answer, after, hrun, hexplored⟩ := h before hbefore
  refine ⟨answer, after, hrun, hexplored.grows, ?_, ?_, hexplored.settled⟩
  · intro hanswer
    obtain ⟨place, hplace, hreach⟩ := hexplored.reached hanswer
    rw [List.mem_singleton.1 hplace] at hreach
    exact ⟨_, List.mem_singleton_self _, hreach.of_step (.propertySchema p)⟩
  · intro hanswer place hplace
    rw [List.mem_singleton.1 hplace]
    refine .property homits fun b hb => ?_
    cases hb with
    | propertySchema => exact hexplored.clear hanswer _ (List.mem_singleton_self _)

/-! ## §3. Walks over schemas. -/

/-- A walk to each reference explores it, wherever the reference resolves. -/
def ExploresReferences (s : Spec) (v : Visibility) (depth : Nat) (visit : SchemaRef → Walk Bool) :
    Prop :=
  ∀ r, s.Resolves r → s.Explores v depth (visit r) [.schema (.ref r)]

/-- A property that is left out itself ends the walk; any other is walked before the rest. -/
theorem anyLeads_cons (v : Visibility) (visit : SchemaRef → Walk Bool) (p : Property)
    (rest : List Property) :
    anyLeads v visit (p :: rest) =
      if v.omits p then pure true
      else (do if ← p.schema.leads v visit then pure true else anyLeads v visit rest) := by
  cases p
  cases v
  · rfl
  · rfl

mutual

/-- A walk over a schema explores it. -/
theorem explores_leads {depth : Nat} {visit : SchemaRef → Walk Bool}
    (hvisit : s.ExploresReferences v depth visit) :
    ∀ c : Schema, s.ResolvesIn c → s.Explores v depth (c.leads v visit) [.schema c]
  | .ref r, hc => hvisit r (hc r (by simp))
  | .array ⟨items, unique, least, greatest⟩, hc => by
    have hitems : s.ResolvesIn items := fun r hr => hc r (by simpa using hr)
    exact (explores_leads hvisit items hitems).schema fun _ => step_array
  | .record values, hc => by
    have hvalues : s.ResolvesIn values := fun r hr => hc r (by simpa using hr)
    exact (explores_leads hvisit values hvalues).schema fun _ => step_record
  | .object properties, hc => by
    have hproperties : ∀ p ∈ properties, s.ResolvesIn p.schema := fun p hp r hr =>
      hc r (by simpa using mem_referencesOfProperties.2 ⟨p, hp, hr⟩)
    exact (explores_anyLeads hvisit properties hproperties).schema fun _ => step_inline
  | .primitive _, _ => explores_nil.schema fun b => ⟨nofun, nofun⟩
  | .constant _, _ => explores_nil.schema fun b => ⟨nofun, nofun⟩
  | .embeddedEnum _, _ => explores_nil.schema fun b => ⟨nofun, nofun⟩

/-- A walk over properties explores them, from the first on. -/
theorem explores_anyLeads {depth : Nat} {visit : SchemaRef → Walk Bool}
    (hvisit : s.ExploresReferences v depth visit) :
    ∀ ps : List Property, (∀ p ∈ ps, s.ResolvesIn p.schema) →
      s.Explores v depth (anyLeads v visit ps) (ps.map Place.property)
  | [], _ => explores_nil
  | ⟨name, description, sample, required, readOnly, writeOnly, nullable, owner, schema⟩ :: rest, hps => by
    rw [anyLeads_cons]
    split
    next homits => exact explores_true List.mem_cons_self (reaches_of_omits s homits)
    next homits =>
      have hfirst : s.Explores v depth (schema.leads v visit) [.property ⟨name, description, sample,
          required, readOnly, writeOnly, nullable, owner, schema⟩] :=
        (explores_leads hvisit schema (hps _ List.mem_cons_self)).property (by simpa using homits)
      have hrest := explores_anyLeads hvisit rest fun p hp => hps p (List.mem_cons_of_mem _ hp)
      exact hfirst.orElse hrest

end

/-- A walk over references explores them, from the first on. -/
theorem explores_anyVisited {depth : Nat} {visit : SchemaRef → Walk Bool}
    (hvisit : s.ExploresReferences v depth visit) {refs : List SchemaRef}
    (hrefs : ∀ r ∈ refs, s.Resolves r) :
    s.Explores v depth (anyVisited visit refs) (refs.map fun r => Place.schema (.ref r)) := by
  induction refs with
  | nil => exact explores_nil
  | cons r rest ih =>
    have hfirst := hvisit r (hrefs r List.mem_cons_self)
    have hrest := ih fun r hr => hrefs r (List.mem_cons_of_mem _ hr)
    exact hfirst.orElse hrest

/-! ## §4. Walks over models. -/

theorem lift_ok_bind {α β : Type} (a : α) (f : α → Walk β) :
    (StateT.lift (Except.ok a) >>= f) = f a := rfl

/-- Where walks explore models, walks to references explore those. -/
theorem exploresReferences_of_models {depth : Nat}
    (h : ∀ m, s.IsDeclared m → s.Explores v depth (s.modelLeads v depth m) [.model m]) :
    s.ExploresReferences v depth (s.follow (s.modelLeads v depth)) := by
  rintro r ⟨m, hm⟩
  unfold follow
  rw [hm, lift_ok_bind]
  exact (h m (isDeclared_of_getModel hm)).schema fun b => step_reference hm

/-- The references to the members of a union stand in it. -/
theorem memberReferences_subset (u : OneOfModel) : u.memberReferences ⊆ (Model.oneOf u).links := by
  unfold OneOfModel.memberReferences
  split
  next => exact List.subset_append_left _ _
  next => exact List.subset_append_right _ _

/-- A walk over what a model is made of explores the places next to the model. -/
theorem explores_nextLeads {depth : Nat} {visit : SchemaRef → Walk Bool}
    (hvisit : s.ExploresReferences v depth visit) (hr : s.AllResolve) (hf : s.AllFlatten)
    {m : Model} (hm : s.IsDeclared m) :
    ∃ places, (∀ b, Step s (.model m) b ↔ b ∈ places) ∧
      s.Explores v depth (s.nextLeads v visit m) places := by
  -- the places next to a model are listed in the order in which the walk visits them
  cases m with
  | generic g | allOf a =>
    obtain ⟨ps, hps⟩ := hf _ hm
    have hproperties : s.Explores v depth (anyLeads v visit ps) (ps.map Place.property) :=
      explores_anyLeads hvisit ps fun p hp => hr.resolvesIn (stores_of_allProperties hm hps hp)
    refine ⟨_, fun b => step_properties rfl hps, ?_⟩
    unfold nextLeads
    simpa only [hps, lift_ok_bind] using hproperties
  | oneOf u =>
    refine ⟨_, fun b => step_members, explores_anyVisited hvisit fun r hmember => ?_⟩
    exact hr r (storesReference_of_link hm (memberReferences_subset u hmember))
  | array a =>
    refine ⟨_, fun b => step_modelItems, explores_leads hvisit _ ?_⟩
    exact hr.resolvesIn (stores_of_schema hm (List.mem_singleton_self _))
  | enumeration e =>
    refine ⟨[], fun b => ⟨fun hb => ?_, nofun⟩, explores_nil⟩
    cases hb with
    | modelProperty hobject => exact Bool.noConfusion hobject

/-- A model that was passed does not count again. -/
theorem modelLeads_passed {depth : Nat} {m : Model} {passed : List String} (h : m.name ∈ passed) :
    (s.modelLeads v depth m).run passed = .ok (false, passed) := by
  unfold modelLeads
  simp [h]
  rfl

/-- Any other model is passed, and its walk goes on at what is next to it. -/
theorem modelLeads_new {depth : Nat} {m : Model} {passed : List String} (h : m.name ∉ passed) :
    (s.modelLeads v (depth + 1) m).run passed =
      (s.nextLeads v (s.follow (s.modelLeads v depth)) m).run (m.name :: passed) := by
  rw [modelLeads]
  simp [h]

theorem explored_passed {m : Model} {passed : List String} (h : m.name ∈ passed) :
    s.Explored v passed passed [.model m] false where
  grows := List.Subset.refl _
  reached := fun hanswer => Bool.noConfusion hanswer
  clear := fun _ place hplace => by
    rw [List.mem_singleton.1 hplace]
    exact .model h
  settled := fun _ _ _ hmem hnot => absurd hmem hnot

/-- What a walk finds next to a model, it finds from the model, which it has settled then. -/
theorem Explored.model (hs : s.NamesDistinct) {m : Model} (hm : s.IsDeclared m)
    {before after : List String} {places : List Place} {answer : Bool}
    (hnext : ∀ b, Step s (.model m) b ↔ b ∈ places)
    (h : s.Explored v (m.name :: before) after places answer) :
    s.Explored v before after [.model m] answer where
  -- the name is passed before the walk goes on, so it is counted as passed in all that follows
  grows := List.Subset.trans (List.subset_cons_self _ _) h.grows
  reached := by
    intro hanswer
    obtain ⟨place, hplace, hreach⟩ := h.reached hanswer
    exact ⟨_, List.mem_singleton_self _, hreach.of_step ((hnext place).2 hplace)⟩
  clear := by
    intro _ place hplace
    rw [List.mem_singleton.1 hplace]
    exact .model (h.grows List.mem_cons_self)
  settled := by
    intro hanswer other hother hmem hnot
    by_cases hname : other.name = m.name
    · -- the model itself: all that is next to it was explored
      rw [hs.eq_of_name_eq hother hm hname]
      exact fun b hb => h.clear hanswer b ((hnext b).1 hb)
    · refine h.settled hanswer other hother hmem fun hin => ?_
      rcases List.mem_cons.1 hin with heq | hin
      · exact hname heq
      · exact hnot hin

/-- **A walk over a model explores it.** -/
theorem explores_modelLeads (hs : s.NamesDistinct) (hr : s.AllResolve) (hf : s.AllFlatten)
    {depth : Nat} :
    ∀ m, s.IsDeclared m → s.Explores v depth (s.modelLeads v depth m) [.model m] := by
  -- on the depth: a new model leaves one model less to pass, and one level less to go down
  induction depth with
  | zero =>
    intro m hm before hbefore
    by_cases hpassed : m.name ∈ before
    · exact ⟨false, before, modelLeads_passed hpassed, explored_passed hpassed⟩
    · have hfewer := unpassed_cons hm.name_mem hpassed
      omega
  | succ depth ih =>
    intro m hm before hbefore
    by_cases hpassed : m.name ∈ before
    · exact ⟨false, before, modelLeads_passed hpassed, explored_passed hpassed⟩
    · have hfewer := unpassed_cons hm.name_mem hpassed
      obtain ⟨places, hnext, hexplores⟩ :=
        explores_nextLeads (exploresReferences_of_models ih) hr hf hm
      obtain ⟨answer, after, hrun, hexplored⟩ := hexplores (m.name :: before) (by omega)
      refine ⟨answer, after, ?_, hexplored.model hs hm hnext⟩
      rw [modelLeads_new hpassed, hrun]

/-! ## §5. Whole walks. -/

/-- A walk that starts with no model passed answers yes exactly if it starts at something that leads to a
property that is required and flagged. -/
theorem Explores.run' {depth : Nat} {walk : Walk Bool} {place : Place}
    (h : s.Explores v depth walk [place]) (hdepth : s.count ≤ depth)
    (hplace : ∀ m, place = .model m → s.IsDeclared m) :
    ∃ answer, walk.run' [] = .ok answer ∧ (answer = true ↔ s.Reaches v place) := by
  -- no name was passed at the start, so what the walk leaves clear is clear without reservation
  obtain ⟨answer, after, hrun, hexplored⟩ := h [] (Nat.le_trans (s.unpassed_le []) hdepth)
  refine ⟨answer, ?_, ?_, ?_⟩
  · show Prod.fst <$> walk.run [] = .ok answer
    rw [hrun]
    rfl
  · intro hanswer
    obtain ⟨p, hp, hreach⟩ := hexplored.reached hanswer
    rw [List.mem_singleton.1 hp] at hreach
    exact hreach
  · intro hreach
    cases answer with
    | true => rfl
    | false =>
      have hclear := hexplored.clear rfl place (List.mem_singleton_self _)
      have hsettled : ∀ m, s.IsDeclared m → m.name ∈ after → s.Settled v after m :=
        fun m hm hmem => hexplored.settled rfl m hm hmem List.not_mem_nil
      exact absurd hreach (hclear.not_reaches hsettled hplace)

theorem length_le_walkBound (s : Spec) : s.count ≤ s.walkBound := Nat.le_add_right _ _

/-- The gate of a model answers whether the model reaches what a view leaves out. -/
theorem modelHas_reaches (hs : s.NamesDistinct) (hr : s.AllResolve) (hf : s.AllFlatten) {m : Model}
    (hm : s.IsDeclared m) (v : Visibility) :
    ∃ answer, s.modelHas v m = .ok answer ∧ (answer = true ↔ s.Reaches v (.model m)) := by
  refine (explores_modelLeads hs hr hf m hm).run' s.length_le_walkBound ?_
  intro m' heq
  rw [← Place.model.inj heq]
  exact hm

/-- The gate of a schema answers whether the schema reaches what a view leaves out. -/
theorem schemaHas_reaches (hs : s.NamesDistinct) (hr : s.AllResolve) (hf : s.AllFlatten) {c : Schema}
    (hc : s.ResolvesIn c) (v : Visibility) :
    ∃ answer, s.schemaHas v c = .ok answer ∧ (answer = true ↔ s.Reaches v (.schema c)) := by
  have hvisit : s.ExploresReferences v s.walkBound (s.visit v) :=
    exploresReferences_of_models fun m hm => explores_modelLeads hs hr hf m hm
  exact (explores_leads hvisit c hc).run' s.length_le_walkBound nofun

/-- **The gate of a view is exactly reachability.** Where all references resolve and all models flatten, the
gate of a model or schema ends with an answer, also on models that refer to each other, and answers yes
exactly if finitely many steps lead to a property that is required and flagged. -/
theorem has_iff_reaches (hs : s.Made) (hr : s.AllResolve) (hf : s.AllFlatten) (v : Visibility) :
    (∀ m, s.IsDeclared m →
      ∃ answer, s.modelHas v m = .ok answer ∧ (answer = true ↔ s.Reaches v (.model m))) ∧
    (∀ c, s.Stores c →
      ∃ answer, s.schemaHas v c = .ok answer ∧ (answer = true ↔ s.Reaches v (.schema c))) := by
  constructor
  · intro m hm
    exact modelHas_reaches hs.namesDistinct hr hf hm v
  · intro c hc
    exact schemaHas_reaches hs.namesDistinct hr hf (hr.resolvesIn hc) v

/-- In the diamond, requests leave something out of `Node`, and responses nothing. -/
theorem reaches_in_diamond :
    (Diamond.spec.Made ∧ Diamond.spec.AllResolve ∧ Diamond.spec.AllFlatten) ∧
      Diamond.spec.Reaches .readOnly (.model (.allOf Diamond.node)) ∧
      ¬ Diamond.spec.Reaches .writeOnly (.model (.allOf Diamond.node)) := by
  refine ⟨⟨Diamond.made, by decide, by decide⟩, ?_, ?_⟩
  · obtain ⟨answer, hanswer, hiff⟩ :=
      (has_iff_reaches Diamond.made (by decide) (by decide) .readOnly).1 _ Diamond.declares_node
    have hhas : Diamond.spec.modelHas .readOnly (.allOf Diamond.node) = .ok true := rfl
    rw [hhas] at hanswer
    exact hiff.1 (Except.ok.inj hanswer).symm
  · obtain ⟨answer, hanswer, hiff⟩ :=
      (has_iff_reaches Diamond.made (by decide) (by decide) .writeOnly).1 _ Diamond.declares_node
    have hhas : Diamond.spec.modelHas .writeOnly (.allOf Diamond.node) = .ok false := rfl
    rw [hhas] at hanswer
    intro hreach
    exact Bool.noConfusion ((Except.ok.inj hanswer).trans (hiff.2 hreach))

end Spec

end OpenApi
