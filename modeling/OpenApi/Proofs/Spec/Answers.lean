/-
  OpenApi.Proofs.Spec.Answers — specs that hold the same models in another order.

  Every view of a spec looks models up by references and counts them, so specs that agree on these two give the
  same answers (`SameLookups`). Specs that hold the same models in another order do, since the names of models are
  distinct; they also agree on every table that is kept in order. Main statement: `Alike.sameAnswers`.
-/
import Mathlib.Data.List.Sort
import OpenApi.Proofs.Build.Visits
import OpenApi.Proofs.Effects.Readers
import OpenApi.Proofs.Spec.Numbers
import OpenApi.Spec.Visibility

namespace OpenApi.Spec

variable {s t : Spec}

/-! ## §1. Views and lookups. -/

/-- References lead to the same models in both specs, and both hold equally many. -/
structure SameLookups (s t : Spec) : Prop where
  getModel : ∀ r, s.getModel r = t.getModel r
  count : s.count = t.count

namespace SameLookups

variable (h : s.SameLookups t)
include h

theorem chainBound : s.chainBound = t.chainBound := congrArg (· + 1) h.count

theorem firstInSupers (look : Model → Except Error (Option Property)) (refs : List SchemaRef) :
    s.firstInSupers look refs = t.firstInSupers look refs := by
  induction refs with
  | nil => rfl
  | cons r rest ih =>
    unfold Spec.firstInSupers
    rw [h.getModel, ih]

theorem findProperty (property : String) {depth : Nat} :
    ∀ chain m, s.findProperty property depth chain m = t.findProperty property depth chain m := by
  -- the depth bounds the chain of supers; only a model with supers looks further
  induction depth with
  | zero =>
    intro chain m
    cases m with
    | allOf m =>
      unfold Spec.findProperty
      refine bind_congr fun chain => ?_
      cases m.inlineProperty? property with
      | some p => rfl
      | none => rfl
    | generic m | enumeration m | oneOf m | array m =>
      unfold Spec.findProperty
      rfl
  | succ depth ih =>
    intro chain m
    cases m with
    | allOf m =>
      unfold Spec.findProperty
      refine bind_congr fun chain => ?_
      have hlook : Spec.findProperty s property depth chain = Spec.findProperty t property depth chain :=
        funext fun m => ih chain m
      cases m.inlineProperty? property with
      | some p => rfl
      | none =>
        dsimp only
        rw [hlook, h.firstInSupers]
    | generic m | enumeration m | oneOf m | array m =>
      unfold Spec.findProperty
      rfl

theorem getProperty (m : Model) (name : String) : s.getProperty m name = t.getProperty m name := by
  unfold Spec.getProperty
  rw [h.chainBound, h.findProperty]

theorem superModels (m : AllOfModel) : s.superModels m = t.superModels m := by
  unfold Spec.superModels
  rw [funext h.getModel]

theorem requiredInherited (depth : Nat) (chain : Chain) (m : AllOfModel) (required : List String) :
    s.requiredInherited depth chain m required = t.requiredInherited depth chain m required := by
  induction required with
  | nil => rfl
  | cons property rest ih =>
    have hlook : Spec.findProperty s property depth chain = Spec.findProperty t property depth chain :=
      funext fun m => h.findProperty property chain m
    unfold Spec.requiredInherited
    rw [ih, hlook, h.firstInSupers]

theorem collectAllOf {depth : Nat} :
    ∀ chain m into, s.collectAllOf depth chain m into = t.collectAllOf depth chain m into := by
  induction depth with
  | zero => exact fun chain m into => by unfold Spec.collectAllOf; rfl
  | succ depth ih =>
    intro chain m into
    unfold Spec.collectAllOf
    refine bind_congr fun chain => ?_
    have hcollect : Spec.collectAllOf s depth chain = Spec.collectAllOf t depth chain :=
      funext fun m => funext fun into => ih chain m into
    dsimp only
    unfold Spec.ownPropertiesIn
    rw [h.superModels, hcollect, h.requiredInherited]

theorem allProperties (m : Model) : s.allProperties m = t.allProperties m := by
  cases m with
  | allOf m =>
    show s.collectAllOf s.chainBound [] m [] = t.collectAllOf t.chainBound [] m []
    rw [h.chainBound, h.collectAllOf]
  | generic m | enumeration m | oneOf m | array m => rfl

theorem requiresNothing (m : Model) : s.requiresNothing m = t.requiresNothing m := by
  unfold Spec.requiresNothing
  rw [h.allProperties]

theorem mappedModels (m : OneOfModel) : s.mappedModels m = t.mappedModels m := by
  have hvalue : ∀ property, s.memberValue property = t.memberValue property := by
    intro property
    funext r
    have hproperty : ∀ m, s.property m property = t.property m property := by
      intro m
      unfold Spec.property
      rw [h.getProperty]
    unfold Spec.memberValue
    rw [h.getModel]
    simp only [hproperty]
  unfold Spec.mappedModels
  rw [funext hvalue, funext h.getModel]

theorem modelLeads (v : Visibility) {depth : Nat} : ∀ m, s.modelLeads v depth m = t.modelLeads v depth m := by
  induction depth with
  | zero => exact fun m => by unfold Spec.modelLeads; rfl
  | succ depth ih =>
    intro m
    -- one step follows references, which both documents resolve alike, and then the shorter walk
    have hfollow : s.follow (s.modelLeads v depth) = t.follow (t.modelLeads v depth) := by
      funext r
      unfold Spec.follow
      rw [h.getModel, funext ih]
    have hnext : ∀ visit, s.nextLeads v visit m = t.nextLeads v visit m := by
      intro visit
      cases m with
      | generic m | allOf m =>
        unfold Spec.nextLeads
        dsimp only
        rw [h.allProperties]
      | enumeration m | oneOf m | array m => rfl
    unfold Spec.modelLeads
    dsimp only
    rw [hfollow, hnext]

theorem walkBound : s.walkBound = t.walkBound := congrArg (· + 2) h.count

theorem modelHas (v : Visibility) (m : Model) : s.modelHas v m = t.modelHas v m := by
  unfold Spec.modelHas
  rw [h.walkBound, h.modelLeads]

theorem schemaHas (v : Visibility) (c : Schema) : s.schemaHas v c = t.schemaHas v c := by
  have hvisit : s.visit v = t.visit v := by
    funext r
    unfold visit Spec.follow
    rw [h.getModel, h.walkBound, funext (h.modelLeads v)]
  unfold Spec.schemaHas
  rw [hvisit]

theorem omitted (v : Visibility) (m : Model) : s.omitted v m = t.omitted v m := by
  have htest : s.isOmitted v = t.isOmitted v := by
    funext p
    unfold isOmitted
    rw [h.schemaHas]
  unfold Spec.omitted
  rw [h.allProperties, htest]

end SameLookups

/-! ## §2. The same models in another order. -/

/-- Both specs have tables in step and hold the same, but the models stand in another order, which makes no difference
for which of them a reference text names. -/
structure Alike (s t : Spec) : Prop where
  left : s.InStep
  right : t.InStep
  info : s.info = t.info
  servers : s.servers = t.servers
  entryFile : s.entryFile = t.entryFile
  models : s.models.Perm t.models
  declared : ∀ text, s.declared? text = t.declared? text
  references : ∀ text, text ∈ s.references ↔ text ∈ t.references
  operations : s.operations = t.operations
  apis : s.apis = t.apis
  securitySchemes : s.securitySchemes = t.securitySchemes

namespace Alike

theorem refl (hs : s.InStep) : s.Alike s :=
  ⟨hs, hs, rfl, rfl, rfl, .refl _, fun _ => rfl, fun _ => .rfl, rfl, rfl, rfl⟩

theorem symm (h : s.Alike t) : t.Alike s :=
  ⟨h.right, h.left, h.info.symm, h.servers.symm, h.entryFile.symm, h.models.symm, fun text => (h.declared text).symm,
    fun text => (h.references text).symm, h.operations.symm, h.apis.symm, h.securitySchemes.symm⟩

theorem arena (h : s.Alike t) : s.arena.Perm t.arena := by
  rw [← h.left.map_model_models, ← h.right.map_model_models]
  exact h.models.map _

theorem modelNames_subset (h : s.Alike t) : s.modelNames ⊆ t.modelNames := by
  intro name hname
  rw [mem_modelNames, h.left.declares_iff] at hname
  rw [mem_modelNames, h.right.declares_iff]
  exact (h.arena.map Model.name).mem_iff.1 hname

theorem modelNames (h : s.Alike t) : s.modelNames = t.modelNames :=
  List.Subset.antisymm_of_pairwise (Text.pairwise_ordered _) (Text.pairwise_ordered _) h.modelNames_subset
    h.symm.modelNames_subset

theorem sameLookups (h : s.Alike t) : s.SameLookups t where
  getModel r := by rw [h.left.getModel_eq, h.right.getModel_eq, h.declared, h.modelNames]
  count := h.arena.length_eq

/-- Among elements of which at most one passes a test, the order does not matter for which one is found. -/
theorem find?_eq_of_perm {α : Type} {p : α → Bool} {xs ys : List α} (hperm : xs.Perm ys)
    (hone : ∀ a ∈ xs, ∀ b ∈ xs, p a = true → p b = true → a = b) : xs.find? p = ys.find? p := by
  cases hx : xs.find? p with
  | none =>
    rw [List.find?_eq_none] at hx
    exact (List.find?_eq_none.2 fun a ha => hx a (hperm.mem_iff.2 ha)).symm
  | some a =>
    have hmem := List.mem_of_find?_eq_some hx
    cases hy : ys.find? p with
    | none => exact absurd (List.find?_some hx) (List.find?_eq_none.1 hy a (hperm.mem_iff.1 hmem))
    | some b =>
      have hb := hperm.mem_iff.2 (List.mem_of_find?_eq_some hy)
      rw [hone a hmem b hb (List.find?_some hx) (List.find?_some hy)]

theorem modelNamed? (h : s.Alike t) (hs : s.NamesDistinct) (name : String) :
    s.modelNamed? name = t.modelNamed? name := by
  have ht : t.NamesDistinct := (h.arena.map Model.name).nodup_iff.1 hs
  refine Option.ext fun m => ?_
  rw [h.left.modelNamed?_eq_some_iff hs, h.right.modelNamed?_eq_some_iff ht]
  exact and_congr_left fun _ => h.arena.mem_iff

theorem sameTables (h : s.Alike t) (hs : s.NamesDistinct) : s.SameTables t where
  left := h.left
  right := h.right
  info := h.info
  servers := h.servers
  modelNamed := h.modelNamed? hs
  operation id := by
    unfold operation?
    rw [h.operations]

/-- Models with distinct names have only one order in which their names ascend. -/
theorem sortedModels (h : s.Alike t) (hs : s.NamesDistinct) : s.sortedModels = t.sortedModels := by
  have hsorted : ∀ u : Spec, u.sortedModels.Pairwise fun a b => (!decide (b.name < a.name)) = true := by
    intro u
    refine List.pairwise_mergeSort (fun a b c hab hbc => ?_) (fun a b => ?_) _
    · simp only [Bool.not_eq_true', decide_eq_false_iff_not, not_lt] at hab hbc ⊢
      exact le_trans hab hbc
    · simp only [Bool.or_eq_true, Bool.not_eq_true', decide_eq_false_iff_not, not_lt]
      exact le_total _ _
  have hmem : ∀ {m : Model}, m ∈ s.sortedModels → s.IsDeclared m := fun hm => List.mem_mergeSort.1 hm
  have hperm : s.sortedModels.Perm t.sortedModels :=
    (List.mergeSort_perm _ _).trans (h.arena.trans (List.mergeSort_perm _ _).symm)
  refine List.Perm.eq_of_pairwise (fun a b ha hb hab hba => ?_) (hsorted s) (hsorted t) hperm
  simp only [Bool.not_eq_true', decide_eq_false_iff_not, not_lt] at hab hba
  exact hs.eq_of_name_eq (hmem ha) (hmem (hperm.mem_iff.2 hb)) (le_antisymm hab hba)

/-! ## §3. Changes of both specs. -/

/-- The last model that a text names is a new one, or else the one that it named before. -/
theorem declared?_of_applyAll (text : String) {changes : List Change} :
    ∀ {u v : Spec}, u.InStep → u.applyAll changes = .ok v →
      v.declared? text =
        ((changes.filterMap Change.declared?).reverse.find? fun d => d.place = text).or (u.declared? text) := by
  induction changes with
  | nil =>
    intro u v hu h
    rw [← Except.ok.inj h]
    rfl
  | cons c changes ih =>
    intro u v hu h
    obtain ⟨mid, hc, h⟩ := Outcome.bind_eq_ok.1 h
    rw [ih (hu.apply hc) h]
    cases c with
    | model file m =>
      have hnew : (Change.model file m).declared? = some ⟨file, m⟩ := rfl
      rw [(addModel_ok hc).2, hu.declared?_withModel, List.filterMap_cons_some hnew, List.reverse_cons,
        List.find?_append, Option.or_assoc]
      congr 1
      by_cases hplace : SchemaRef.place file m.name = text
      · simp [hplace, Declared.place]
      · simp [hplace, Declared.place]
    | operation o =>
      rw [addOperation_ok hc]
      rfl
    | describe | reference | securityScheme =>
      rw [← Except.ok.inj hc]
      rfl

/-- Specs that hold the same still do after the same change. -/
theorem apply {s' t' : Spec} {c : Change} (h : s.Alike t) (hs : s.apply c = .ok s') (ht : t.apply c = .ok t') :
    s'.Alike t' := by
  have hleft : s'.InStep := h.left.apply hs
  have hright : t'.InStep := h.right.apply ht
  -- each change touches fields of its own, and a model that is added stands at the end of both lists
  cases c with
  | describe info servers =>
    cases hs
    cases ht
    exact { h with left := hleft, right := hright, info := rfl, servers := rfl }
  | model file m =>
    obtain ⟨-, rfl⟩ := addModel_ok hs
    obtain ⟨-, rfl⟩ := addModel_ok ht
    refine { h with left := hleft, right := hright, models := ?_, declared := fun text => ?_ }
    · rw [models_withModel h.left.files, models_withModel h.right.files]
      exact h.models.append_right _
    · rw [h.left.declared?_withModel, h.right.declared?_withModel, h.declared]
  | reference r =>
    cases hs
    cases ht
    refine { h with left := hleft, right := hright, references := fun text => ?_ }
    show text ∈ Text.insertOrdered _ _ ↔ text ∈ Text.insertOrdered _ _
    rw [Text.mem_insertOrdered, Text.mem_insertOrdered, h.references]
  | operation o =>
    rw [addOperation_ok hs] at hleft ⊢
    rw [addOperation_ok ht] at hright ⊢
    refine { h with left := hleft, right := hright, operations := ?_, apis := ?_ }
    · rw [h.operations]
    · rw [h.apis]
  | securityScheme scheme =>
    cases hs
    cases ht
    refine { h with left := hleft, right := hright, securitySchemes := ?_ }
    exact congrArg (· ++ [scheme]) h.securitySchemes

theorem applyAll {changes : List Change} : ∀ {s t s' t' : Spec}, s.Alike t → s.applyAll changes = .ok s' →
    t.applyAll changes = .ok t' → s'.Alike t' := by
  induction changes with
  | nil =>
    intro s t s' t' h hs ht
    cases hs
    cases ht
    exact h
  | cons c changes ih =>
    intro s t s' t' h hs ht
    obtain ⟨s₁, hc, hs⟩ := Outcome.bind_eq_ok.1 hs
    obtain ⟨t₁, hd, ht⟩ := Outcome.bind_eq_ok.1 ht
    exact ih (h.apply hc hd) hs ht

end Alike

/-! ## §4. Additions in another order. -/

/-- The change adds a model of the file, or a reference. -/
def AddsTo (file : String) : Change → Prop
  | .model f _ => f = file
  | .reference _ => True
  | _ => False

/-- Additions touch nothing but models and references. -/
theorem alike_of_additions {file : String} {changes : List Change} (hadds : ∀ c ∈ changes, AddsTo file c) :
    ∀ {s t : Spec}, s.applyAll changes = .ok t → t.info = s.info ∧ t.servers = s.servers ∧
      t.entryFile = s.entryFile ∧ t.operations = s.operations ∧ t.apis = s.apis ∧
        t.securitySchemes = s.securitySchemes := by
  -- additions are models and references only, and these leave the six other fields as they are
  induction changes with
  | nil =>
    intro s t h
    cases h
    exact ⟨rfl, rfl, rfl, rfl, rfl, rfl⟩
  | cons c changes ih =>
    intro s t h
    obtain ⟨mid, hc, h⟩ := Outcome.bind_eq_ok.1 h
    obtain ⟨hfirst, hrest⟩ := List.forall_mem_cons.1 hadds
    cases c with
    | model f m =>
      obtain ⟨-, rfl⟩ := addModel_ok hc
      have hlater := ih hrest h
      exact hlater
    | reference r =>
      cases hc
      have hlater := ih hrest h
      exact hlater
    | describe | operation | securityScheme => exact absurd hfirst id

/-- **Additions to one file may be made in any order.** -/
theorem Alike.additions {s' t' : Spec} {file : String} {changes changes' : List Change} (h : s.Alike t)
    (hadds : ∀ c ∈ changes, AddsTo file c) (hperm : changes.Perm changes') (hs : s.applyAll changes = .ok s')
    (ht : t.applyAll changes' = .ok t') (hdistinct : s'.NamesDistinct) : s'.Alike t' := by
  have hadds' : ∀ c ∈ changes', AddsTo file c := fun c hc => hadds c (hperm.mem_iff.2 hc)
  obtain ⟨hi, hv, hf, ho, ha, hc⟩ := alike_of_additions hadds hs
  obtain ⟨hi', hv', hf', ho', ha', hc'⟩ := alike_of_additions hadds' ht
  have hmodels := applyAll_models h.left.files hs
  have hmodels' := applyAll_models h.right.files ht
  have hnew := hperm.filterMap Change.declared?
  have hfiles : ∀ d ∈ changes.filterMap Change.declared?, d.file = file := fun d hd =>
    hadds _ (Change.mem_declared.1 hd)
  -- models of one file are told apart by their places, so the last one is the only one
  have hone : ∀ text, ∀ a ∈ (changes.filterMap Change.declared?).reverse,
      ∀ b ∈ (changes.filterMap Change.declared?).reverse, decide (a.place = text) = true →
        decide (b.place = text) = true → a = b := by
    intro text a ha b hb hpa hpb
    rw [List.mem_reverse] at ha hb
    have hplace : SchemaRef.place a.file a.model.name = SchemaRef.place b.file b.model.name :=
      (of_decide_eq_true hpa).trans (of_decide_eq_true hpb).symm
    rw [hfiles a ha, hfiles b hb] at hplace
    have hmem : ∀ d ∈ changes.filterMap Change.declared?, s'.IsDeclared d.model := fun d hd =>
      mem_arena_of_mem_models (hmodels ▸ List.mem_append_right _ hd)
    have hname : a.model.name = b.model.name := by simpa [SchemaRef.place] using hplace
    cases a
    cases b
    exact Declared.mk.injEq .. ▸ ⟨(hfiles _ ha).trans (hfiles _ hb).symm,
      hdistinct.eq_of_name_eq (hmem _ ha) (hmem _ hb) hname⟩
  refine ⟨h.left.applyAll hs, h.right.applyAll ht, ?_, ?_, ?_, ?_, fun text => ?_, fun text => ?_, ?_, ?_, ?_⟩
  · rw [hi, hi', h.info]
  · rw [hv, hv', h.servers]
  · rw [hf, hf', h.entryFile]
  · rw [hmodels, hmodels']
    exact h.models.append hnew
  · have hreverse : (changes.filterMap Change.declared?).reverse.Perm
        (changes'.filterMap Change.declared?).reverse :=
      (List.reverse_perm _).trans (hnew.trans (List.reverse_perm _).symm)
    rw [Alike.declared?_of_applyAll text h.left hs, Alike.declared?_of_applyAll text h.right ht, h.declared,
      Alike.find?_eq_of_perm hreverse (hone text)]
  · rw [mem_applyAll_references hs, mem_applyAll_references ht, h.references,
      (hperm.filterMap Change.reference?).mem_iff]
  · rw [ho, ho', h.operations]
  · rw [ha, ha', h.apis]
  · rw [hc, hc', h.securitySchemes]

/-! ## §5. Answers. -/

/-- Nobody who asks the specs by name can tell them apart: they have the same models under every name and in
ascending order, the same references and operations, and every view of every model is the same. -/
structure SameAnswers (s t : Spec) : Prop where
  modelNamed : ∀ name, s.modelNamed? name = t.modelNamed? name
  sortedModels : s.sortedModels = t.sortedModels
  references : s.references = t.references
  operations : s.operations = t.operations
  getModel : ∀ r, s.getModel r = t.getModel r
  allProperties : ∀ m, s.allProperties m = t.allProperties m
  getProperty : ∀ m name, s.getProperty m name = t.getProperty m name
  mappedModels : ∀ m, s.mappedModels m = t.mappedModels m
  omitted : ∀ v m, s.omitted v m = t.omitted v m
  requiresNothing : ∀ m, s.requiresNothing m = t.requiresNothing m
  modelHas : ∀ v m, s.modelHas v m = t.modelHas v m
  schemaHas : ∀ v c, s.schemaHas v c = t.schemaHas v c

/-- The references of a spec that was made ascend. -/
theorem Made.references_ascend (hs : s.Made) : s.references.Pairwise (· < ·) := by
  obtain ⟨file, changes, h⟩ := hs
  -- over the changes, from any state: only the recording of a reference touches the list, and it inserts in order
  have hstep : ∀ {changes : List Change} {s t : Spec}, s.applyAll changes = .ok t →
      s.references.Pairwise (· < ·) → t.references.Pairwise (· < ·) := by
    intro changes
    induction changes with
    | nil =>
      intro s t h hs
      cases h
      exact hs
    | cons c changes ih =>
      intro s t h hs
      obtain ⟨mid, hc, h⟩ := Outcome.bind_eq_ok.1 h
      refine ih h ?_
      cases c with
      | reference r =>
        cases hc
        exact Text.pairwise_insertOrdered hs
      | model file m =>
        obtain ⟨-, rfl⟩ := addModel_ok hc
        exact hs
      | operation o =>
        rw [addOperation_ok hc]
        exact hs
      | describe | securityScheme =>
        cases hc
        exact hs
  exact hstep h List.Pairwise.nil

theorem Alike.references_eq (h : s.Alike t) (hs : s.Made) (ht : t.Made) : s.references = t.references :=
  List.Subset.antisymm_of_pairwise hs.references_ascend ht.references_ascend
    (fun text htext => (h.references text).1 htext) fun text htext => (h.references text).2 htext

theorem Alike.unresolvedReferences (h : s.Alike t) (hs : s.Made) (ht : t.Made) :
    s.unresolvedReferences = t.unresolvedReferences := by
  have htest : ∀ text, (s.numberAt? text).isNone = (t.numberAt? text).isNone := fun text => by
    rw [← Option.not_isSome, ← Option.not_isSome, ← h.left.isSome_declared?, ← h.right.isSome_declared?, h.declared]
  unfold Spec.unresolvedReferences
  rw [h.references_eq hs ht]
  exact List.filter_congr fun text _ => htest text

/-- **Specs that hold the same models in another order give the same answers.** -/
theorem Alike.sameAnswers (h : s.Alike t) (hs : s.Made) (ht : t.Made) : s.SameAnswers t where
  modelNamed := h.modelNamed? hs.namesDistinct
  sortedModels := h.sortedModels hs.namesDistinct
  references := h.references_eq hs ht
  operations := h.operations
  getModel := h.sameLookups.getModel
  allProperties := h.sameLookups.allProperties
  getProperty := h.sameLookups.getProperty
  mappedModels := h.sameLookups.mappedModels
  omitted := h.sameLookups.omitted
  requiresNothing := h.sameLookups.requiresNothing
  modelHas := h.sameLookups.modelHas
  schemaHas := h.sameLookups.schemaHas

end OpenApi.Spec
