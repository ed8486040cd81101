/-
  OpenApi.Proofs.Required.Members — what the members of an allOf require and declare.

  An allOf model is assembled member by member. A name that a member requires and declares marks its own property; a
  name that it requires and does not declare is put among those that the model requires, which mark the inline
  properties at the end. Both are told by the nodes of the members (`readAllOf_leaves`).
-/
import OpenApi.Proofs.Build.Growth
import OpenApi.Proofs.Build.ModelReaders
import OpenApi.Proofs.Keyed

namespace OpenApi

/-! ## §1. What is written in members. -/

namespace Node

/-- The names that a schema requires. -/
def requiredTexts (n : Node) : List String := (n.itemsAt "required").filterMap scalarText

/-- The names of the properties that a schema declares. -/
def declaredNames (n : Node) : List String := (n.membersAt "properties").map (·.1)

/-- Is the member of an allOf declared in place? -/
def isInline (n : Node) : Bool := !n.has "$ref"

theorem declaredNames_of_not_has {n : Node} (h : n.has "properties" = false) : n.declaredNames = [] := by
  unfold declaredNames
  rw [membersAt_of_none (value?_of_not_has h), List.map_nil]

theorem requiredTexts_of_not_has {n : Node} (h : n.has "required" = false) : n.requiredTexts = [] := by
  unfold requiredTexts
  rw [itemsAt_of_none (value?_of_not_has h), List.filterMap_nil]

end Node

/-! ## §2. Objects. -/

/-- The object has the properties that the node declares; those are required that the node requires, or that are
required `besides`. -/
structure Node.Gives (besides : List String) (n : Node) (object : List Property) : Prop where
  names : ∀ name, (∃ p ∈ object, p.name = name) ↔ name ∈ n.declaredNames
  required : ∀ p ∈ object, (p.required = true ↔ p.name ∈ n.requiredTexts ∨ p.name ∈ besides)

namespace Build

open Building (Leaves Silent)

variable {m : Mapping}

theorem readTexts_leaves (m : Mapping) (key : String) :
    (readTexts m key).Leaves fun texts _ => texts = (m.node.itemsAt key).filterMap Node.scalarText := by
  unfold readTexts
  refine Leaves.sequence (fun hnone l hl => ?_) fun c l hc _ hl => ?_
  · rw [hl, Node.itemsAt_of_none hnone]
    exact .pure fun _ => rfl
  · rw [hl, Node.itemsAt_of_value? hc]
    exact Leaves.silent (Silent.of_lift _) fun _ _ _ hrun => Sequence.of_texts (Building.run_lift_ok hrun).1

section

variable {build : Mapping → Building Schema} (hbuild : ∀ c, (build c).Leaves fun _ _ => True)
include hbuild

theorem readProperty_leaves (owner : Owner) (name : String) (required : Bool) :
    (readProperty build owner name required m).Leaves fun p _ => p.name = name ∧ p.required = required := by
  unfold readProperty
  refine .reading fun _ => .reading fun _ => .reading fun _ => .reading fun _ => .reading fun _ => ?_
  exact .given (hbuild m) fun _ _ => .pure fun _ => ⟨rfl, rfl⟩

end

section

variable {build : Owner → Mapping → Building Schema} (hbuild : ∀ owner c, (build owner c).Leaves fun _ _ => True)
include hbuild

theorem readProperties_leaves (owner : Owner) (required : List String) :
    (readProperties build owner required m).Leaves fun ps _ =>
      List.Forall₂ (fun name p => p.name = name ∧ p.required = required.contains name) m.node.declaredNames ps := by
  unfold readProperties
  refine Leaves.mapping (fun hnone l hl => ?_) fun c l hc _ hl => ?_
  · rw [hl, Node.declaredNames, Node.membersAt_of_none hnone]
    exact .pure fun _ => .nil
  · rw [hl]
    refine Leaves.mappingEntries fun entries hentries _ => ?_
    have hnames : m.node.declaredNames = entries.map (·.1) := by
      rw [Node.declaredNames, Node.membersAt_of_value? hc, ← hentries, List.map_map]
      rfl
    rw [hnames]
    refine (Leaves.mapM (F := fun e p _ => p.name = e.1 ∧ p.required = required.contains e.1) (fun _ _ => .const _)
      fun e _ => readProperty_leaves (hbuild _) owner e.1 _).mono fun ps s h => ?_
    exact List.forall₂_map_left_iff.2 h

/-- The object that is read has the properties that its node declares. -/
theorem readObject_leaves (owner : Owner) :
    (readObject build owner m).Leaves fun object _ => m.node.Gives [] object := by
  unfold readObject
  refine .given (readTexts_leaves m "required") fun required hrequired => ?_
  refine .given (readProperties_leaves hbuild owner required) fun ps hps => .pure fun _ => ?_
  have hput : ps.foldl putProperty [] = Keyed.putAll Property.name [] ps := rfl
  have hnames : ps.map (·.name) = m.node.declaredNames := by
    refine List.forall₂_eq_eq_eq ▸ List.forall₂_map_left_iff.2 ?_
    exact hps.flip.imp fun p name h => h.1
  rw [hput]
  refine ⟨fun name => ?_, fun p hp => ?_⟩
  · have hkeys : (∃ p ∈ Keyed.putAll Property.name [] ps, p.name = name) ↔
        name ∈ (Keyed.putAll Property.name [] ps).map (·.name) := by simp
    rw [hkeys, Keyed.map_putAll_nil, List.mem_eraseDups, ← hnames]
  · have hmem : p ∈ ps := (Keyed.mem_putAll hp).resolve_left List.not_mem_nil
    obtain ⟨name, -, hname, hflag⟩ := Outcome.exists_left hps hmem
    rw [hflag, hname, hrequired, List.contains_iff_mem]
    simp [Node.requiredTexts]

end

theorem readSchemaTo_leaves (height : Nat) (owner : Owner) (c : Mapping) :
    (readSchemaTo height owner c).Leaves fun _ _ => True :=
  .of_records (readSchemaTo_records owner c)

end Build

/-! ## §3. Members. -/

/-- The model so far of an allOf that requires `own`, after the members were read. -/
structure AllOfModel.Assembled (own : List String) (members : List Node) (a : AllOfModel) : Prop where
  required : ∀ name, name ∈ a.required ↔ name ∈ own ∨
    ∃ c ∈ members, c.isInline = true ∧ name ∈ c.requiredTexts ∧ name ∉ c.declaredNames
  objects : List.Forall₂ (Node.Gives []) (members.filter fun c => c.isInline && c.has "properties") a.inlineSupers

/-- One more member: it adds the names that it requires and does not declare, and perhaps an object. -/
theorem AllOfModel.Assembled.add {own : List String} {members : List Node} {a b : AllOfModel}
    (h : a.Assembled own members) {c : Node}
    (hrequired : ∀ name, name ∈ b.required ↔ name ∈ a.required ∨
      c.isInline = true ∧ name ∈ c.requiredTexts ∧ name ∉ c.declaredNames)
    {more : List (List Property)} (hinline : b.inlineSupers = a.inlineSupers ++ more)
    (hmore : List.Forall₂ (Node.Gives []) ([c].filter fun c => c.isInline && c.has "properties") more) :
    b.Assembled own (members ++ [c]) where
  required name := by
    rw [hrequired, h.required, or_assoc]
    simp only [List.mem_append, List.mem_singleton, or_and_right, exists_or, exists_eq_left]
  objects := by
    rw [hinline, List.filter_append]
    exact List.rel_append h.objects hmore

/-- What the node of an allOf tells of its model: it requires the names that the node requires, and those that a member
declared in place requires without declaring them; its inline objects are those of such members in order, in which the
properties are required that the member or the model requires. -/
structure AllOfModel.ToldBy (n : Node) (a : AllOfModel) : Prop where
  required : ∀ name, name ∈ a.required ↔ name ∈ n.requiredTexts ∨
    ∃ c ∈ n.itemsAt "allOf", c.isInline = true ∧ name ∈ c.requiredTexts ∧ name ∉ c.declaredNames
  objects : List.Forall₂ (Node.Gives a.required)
    ((n.itemsAt "allOf").filter fun c => c.isInline && c.has "properties") a.inlineSupers

namespace Build

open Building (Leaves Silent)

/-! ## §4. Reading members. -/

theorem mem_withNew {texts more : List String} {name : String} :
    name ∈ withNew texts more ↔ name ∈ texts ∨ name ∈ more := by
  unfold withNew
  induction more generalizing texts with
  | nil => simp
  | cons t more ih =>
    rw [List.foldl_cons, ih]
    by_cases ht : texts.contains t = true
    · have hmem : t ∈ texts := List.contains_iff_mem.1 ht
      rw [if_pos ht, List.mem_cons]
      constructor
      · tauto
      · rintro (h | rfl | h)
        · exact .inl h
        · exact .inl hmem
        · exact .inr h
    · rw [if_neg ht, List.mem_append, List.mem_singleton, List.mem_cons, or_assoc]

variable {own : List String} {members : List Node} {a : AllOfModel} {m : Mapping}

/-- Reading a member adds it to those of which the model is assembled. -/
theorem readMember_leaves (ha : a.Assembled own members) :
    (readMember a m).Leaves fun b _ => b.Assembled own (members ++ [m.node]) := by
  have hcontains : ∀ key, m.containsKey key = m.node.has key := fun _ => rfl
  unfold readMember
  simp only [hcontains]
  by_cases href : m.node.has "$ref" = true
  · -- a super model requires nothing here
    have hinline : m.node.isInline = false := by simp [Node.isInline, href]
    rw [if_pos href]
    refine .recorded (readReference_records m) fun r => .pure fun _ => ?_
    refine ha.add (fun name => ?_) (List.append_nil _).symm ?_
    · simp [hinline]
    · simp [hinline]
  have hinline : m.node.isInline = true := by simp [Node.isInline, href]
  rw [if_neg href]
  by_cases hproperties : m.node.has "properties" = true
  · -- an object: what it requires but does not declare is passed on to the model
    rw [if_pos hproperties]
    refine .reading fun _ => .given (readObject_leaves (readSchemaTo_leaves _) _) fun object hobject => ?_
    refine .given (readTexts_leaves m "required") fun required hrequired => .pure fun _ => ?_
    refine ha.add (fun name => ?_) rfl ?_
    · have hdeclared : (Keyed.find? Property.name name object).isNone = true ↔ name ∉ m.node.declaredNames := by
        rw [Option.isNone_iff_eq_none, Keyed.find?_eq_none, ← hobject.names]
        simp
      rw [mem_withNew, List.mem_filter, hdeclared, hrequired]
      simp [hinline, Node.requiredTexts]
    · rw [List.filter_cons_of_pos (by simp [hinline, hproperties])]
      exact .cons hobject .nil
  have hproperties' : m.node.has "properties" = false := Bool.eq_false_iff.2 hproperties
  have hdeclared : m.node.declaredNames = [] := Node.declaredNames_of_not_has hproperties'
  have hnone : List.Forall₂ (Node.Gives []) ([m.node].filter fun c => c.isInline && c.has "properties") [] := by
    rw [List.filter_cons_of_neg (by simp [hproperties']), List.filter_nil]
    exact .nil
  rw [if_neg hproperties]
  by_cases hrequired : m.node.has "required" = true
  · -- a list of names alone: all of it is passed on
    rw [if_pos hrequired]
    refine .reading fun _ => .given (readTexts_leaves m "required") fun required htexts => .pure fun _ => ?_
    refine ha.add (fun name => ?_) (List.append_nil _).symm hnone
    rw [mem_withNew, htexts, hdeclared]
    simp [hinline, Node.requiredTexts]
  have hnothing : m.node.requiredTexts = [] := Node.requiredTexts_of_not_has (Bool.eq_false_iff.2 hrequired)
  rw [if_neg hrequired]
  split
  next =>
    refine .reading fun _ => .report fun _ => .pure fun _ => ?_
    refine ha.add (fun name => ?_) (List.append_nil _).symm hnone
    simp [hnothing]
  next => exact .throw

/-- Properties are marked that the model requires. -/
theorem gives_of_marked {besides : List String} {n : Node} {object : List Property} (h : n.Gives [] object) :
    n.Gives besides (object.map fun p => { p with required := p.required || besides.contains p.name }) where
  names name := by
    rw [← h.names name]
    simp
  required p hp := by
    obtain ⟨q, hq, rfl⟩ := List.mem_map.1 hp
    have hrequired : q.required = true ↔ q.name ∈ n.requiredTexts := by simpa using h.required q hq
    rw [Bool.or_eq_true, hrequired, List.contains_iff_mem]

/-- **An allOf model is told by its node.** -/
theorem readAllOf_leaves (name : String) (description : Option String) (m : Mapping) :
    (readAllOf name description m).Leaves fun a _ => a.ToldBy m.node := by
  unfold readAllOf
  refine .reading fun _ => .given (readTexts_leaves m "required") fun own hown => ?_
  refine Leaves.sequence (fun _ l hl => ?_) fun c l hc _ hl => ?_
  · exact .required fun c hc => absurd (hl.symm.trans hc) nofun
  refine .required fun c' hc' => ?_
  obtain rfl : c = c' := Option.some.inj (hl.symm.trans hc')
  refine Leaves.mappings fun ms hms _ => ?_
  rw [← Node.itemsAt_of_value? hc] at hms
  have hfold : (ms.foldlM readMember ⟨name, description, own, [], []⟩).Leaves
      fun a _ => a.Assembled own (([] ++ ms).map Mapping.node) := by
    refine Leaves.foldlM (I := fun done a => AllOfModel.Assembled own (done.map Mapping.node) a)
      (fun done c a ha => ?_) ?_
    · rw [List.map_append]
      exact readMember_leaves ha
    · exact ⟨fun _ => by simp, .nil⟩
  refine .given hfold fun a ha => .pure fun _ => ?_
  rw [List.nil_append, hms, hown] at ha
  exact ⟨ha.required, List.forall₂_map_right_iff.2 (ha.objects.imp fun n object h => gives_of_marked h)⟩

end Build

end OpenApi
