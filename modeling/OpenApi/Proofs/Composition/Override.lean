/-
  OpenApi.Proofs.Composition.Override — a later property takes the place of an earlier one of the same name.

  The properties of an allOf model are put one by one into one list while its super models are expanded, on a
  chain of names that grows on the way down. What is put does not hang on the chain, on the limit of depth or on
  what the list holds before (`collectAllOf_again`), so each super model puts what it has on its own. Main
  statement: `allProperties_eq_override`.
-/
import OpenApi.Proofs.Composition.Flattening

namespace OpenApi

namespace Spec

variable {s : Spec} {property : String}

/-! ## §1. On shorter chains. -/

/-- What is found in super models is found by any look that gives what this one gives. -/
theorem firstInSupers_again {look look' : Model → Except Error (Option Property)}
    (hlook : ∀ b found, look b = .ok found → look' b = .ok found) {supers : List SchemaRef} :
    ∀ {found : Option Property}, s.firstInSupers look supers = .ok found →
      s.firstInSupers look' supers = .ok found := by
  induction supers with
  | nil => exact fun h => h
  | cons r rest ih =>
    intro found h
    unfold firstInSupers at h ⊢
    obtain ⟨b, hget, h⟩ := Outcome.bind_eq_ok.1 h
    obtain ⟨first, hfirst, h⟩ := Outcome.bind_eq_ok.1 h
    refine Outcome.bind_eq_ok.2 ⟨b, hget, Outcome.bind_eq_ok.2 ⟨first, hlook b first hfirst, ?_⟩⟩
    cases first with
    | some p => exact h
    | none => exact ih h

theorem lookChecked_again {name : String} {look look' : Model → Except Error (Option Property)}
    (hlook : ∀ b found, look b = .ok found → look' b = .ok found) (b : Model) (found : Option Property)
    (h : lookChecked name look b = .ok found) : lookChecked name look' b = .ok found := by
  unfold lookChecked at h ⊢
  split at h
  next hobject => rw [if_pos hobject]; exact hlook b found h
  next => exact absurd h (by simp)

theorem findProperty_inline {a : AllOfModel} {p : Property} (depth : Nat) {chain : Chain}
    (hmem : a.name ∉ chain) (hinline : a.inlineProperty? property = some p) :
    s.findProperty property depth chain (.allOf a) = .ok (some p) := by
  rcases findProperty_allOf depth chain a with
    ⟨hmem', -⟩ | ⟨-, q, hq, hres⟩ | ⟨-, hnone, -⟩ | ⟨-, hnone, -⟩
  · exact absurd hmem' hmem
  · rw [hres, ← hq, hinline]
  · exact absurd (hnone.symm.trans hinline) (by simp)
  · exact absurd (hnone.symm.trans hinline) (by simp)

theorem findProperty_supers {a : AllOfModel} (depth : Nat) {chain : Chain} (hmem : a.name ∉ chain)
    (hinline : a.inlineProperty? property = none) :
    s.findProperty property (depth + 1) chain (.allOf a) =
      s.firstInSupers (lookChecked a.name (s.findProperty property depth (chain ++ [a.name])))
        a.supers := by
  rcases findProperty_allOf (depth + 1) chain a with
    ⟨hmem', -⟩ | ⟨-, q, hq, -⟩ | ⟨-, -, hzero, -⟩ | ⟨-, -, d, hd, hres⟩
  · exact absurd hmem' hmem
  · exact absurd (hinline.symm.trans hq) (by simp)
  · exact absurd hzero (Nat.succ_ne_zero depth)
  · rw [hres, Nat.succ.inj hd]

theorem append_subset_append {chain chain' : Chain} (h : chain' ⊆ chain) (name : String) :
    chain' ++ [name] ⊆ chain ++ [name] :=
  List.append_subset.2 ⟨List.subset_append_of_subset_left _ h, List.subset_append_right _ _⟩

/-- What is found on a chain is found on a part of it, and with more depth. -/
theorem findProperty_again {depth : Nat} :
    ∀ {chain : Chain} {m : Model} {found : Option Property},
      s.findProperty property depth chain m = .ok found → ∀ {depth' : Nat} {chain' : Chain},
        depth ≤ depth' → chain' ⊆ chain → s.findProperty property depth' chain' m = .ok found := by
  -- a shorter chain closes no cycle that the longer one does not, and more depth is left in every step
  induction depth using Nat.strongRecOn with
  | ind depth ih =>
    intro chain m found h depth' chain' hdepth hchain
    cases m with
    | generic g => rwa [findProperty_generic] at h ⊢
    | allOf a =>
      rcases findProperty_allOf depth chain a with
        ⟨-, hres⟩ | ⟨hmem, p, hinline, hres⟩ | ⟨-, -, -, hres⟩ | ⟨hmem, hinline, d, hd, hres⟩
      · rw [hres] at h
        exact absurd h (by simp)
      · rw [findProperty_inline depth' (fun hmem' => hmem (hchain hmem')) hinline, ← hres, h]
      · rw [hres] at h
        exact absurd h (by simp)
      · obtain ⟨d', rfl⟩ : ∃ d', depth' = d' + 1 := ⟨depth' - 1, by omega⟩
        rw [hres] at h
        rw [findProperty_supers d' (fun hmem' => hmem (hchain hmem')) hinline]
        refine firstInSupers_again (lookChecked_again fun b found hb => ?_) h
        exact ih d (by omega) hb (by omega) (append_subset_append hchain _)
    | enumeration _ | oneOf _ | array _ => rwa [findProperty_of_isObject rfl] at h ⊢

theorem requiredInherited_again {depth depth' : Nat} {chain chain' : Chain} (hdepth : depth ≤ depth')
    (hchain : chain' ⊆ chain) {a : AllOfModel} {names : List String} :
    ∀ {ps : List Property}, s.requiredInherited depth chain a names = .ok ps →
      s.requiredInherited depth' chain' a names = .ok ps := by
  induction names with
  | nil => exact fun h => h
  | cons name rest ih =>
    intro ps h
    unfold requiredInherited at h ⊢
    -- the same names are passed over, since this depends on the model alone
    split
    next hinline =>
      rw [if_pos hinline] at h
      exact ih h
    next hinline =>
      rw [if_neg hinline] at h
      obtain ⟨found, hfound, h⟩ := Outcome.bind_eq_ok.1 h
      have hagain := firstInSupers_again (fun b found hb => findProperty_again hb hdepth hchain) hfound
      refine Outcome.bind_eq_ok.2 ⟨found, hagain, ?_⟩
      cases found with
      | none => exact absurd h (by simp)
      | some p =>
        obtain ⟨more, hmore, h⟩ := Outcome.bind_eq_ok.1 h
        exact Outcome.bind_eq_ok.2 ⟨more, ih hmore, h⟩

theorem ownPropertiesIn_again {depth depth' : Nat} {chain chain' : Chain} (hdepth : depth ≤ depth')
    (hchain : chain' ⊆ chain) {a : AllOfModel} {own : List Property}
    (h : s.ownPropertiesIn depth chain a = .ok own) : s.ownPropertiesIn depth' chain' a = .ok own := by
  unfold ownPropertiesIn at h ⊢
  obtain ⟨inherited, hinherited, h⟩ := Outcome.bind_eq_ok.1 h
  exact Outcome.bind_eq_ok.2 ⟨inherited, requiredInherited_again hdepth hchain hinherited, h⟩

/-! ## §2. What a model puts into a list. -/

/-- A fold of steps, each of which puts some properties into the list so far, puts all of them. -/
theorem foldlM_puts {α : Type} {f : List Property → α → Except Error (List Property)}
    {R : α → List Property → Prop} {xs : List α}
    (hstep : ∀ x ∈ xs, ∀ into ps, f into x = .ok ps →
      ∃ qs, ps = Keyed.putAll Property.name into qs ∧ R x qs) :
    ∀ {into ps : List Property}, xs.foldlM f into = .ok ps →
      ∃ lists, List.Forall₂ R xs lists ∧ ps = Keyed.putAll Property.name into lists.flatten := by
  induction xs with
  | nil => exact fun h => ⟨[], .nil, (Except.ok.inj h).symm⟩
  | cons x xs ih =>
    intro into ps h
    rw [List.foldlM_cons] at h
    obtain ⟨mid, hx, h⟩ := Outcome.bind_eq_ok.1 h
    obtain ⟨qs, rfl, hqs⟩ := hstep x List.mem_cons_self _ _ hx
    obtain ⟨lists, hlists, rfl⟩ := ih (fun y hy => hstep y (List.mem_cons_of_mem _ hy)) h
    exact ⟨qs :: lists, .cons hqs hlists, by rw [List.flatten_cons, Keyed.putAll_append]⟩

/-- A fold of steps that put properties into any list puts all of them there. -/
theorem foldlM_of_puts {α : Type} {f : List Property → α → Except Error (List Property)} {xs : List α}
    {lists : List (List Property)}
    (h : List.Forall₂ (fun x qs => ∀ start, f start x = .ok (Keyed.putAll Property.name start qs)) xs lists) :
    ∀ start, xs.foldlM f start = .ok (Keyed.putAll Property.name start lists.flatten) := by
  induction h with
  | nil => exact fun start => rfl
  | cons hx _ ih =>
    intro start
    rw [List.foldlM_cons, hx start]
    exact (ih _).trans (by rw [List.flatten_cons, Keyed.putAll_append])

theorem collectAllOf_succ {a : AllOfModel} (depth : Nat) {chain : Chain} (hmem : a.name ∉ chain)
    (into : List Property) : s.collectAllOf (depth + 1) chain a into = (do
      let supers ← s.superModels a
      let into ← supers.foldlM (collectSuper (s.collectAllOf depth (chain ++ [a.name])) a.name) into
      let own ← s.ownPropertiesIn depth (chain ++ [a.name]) a
      pure (Keyed.putAll Property.name into own)) := by
  rcases collectAllOf_cases (depth + 1) chain a into with ⟨hmem', -⟩ | ⟨-, hzero, -⟩ | ⟨-, d, hd, hres⟩
  · exact absurd hmem' hmem
  · exact absurd hzero (Nat.succ_ne_zero depth)
  · rw [hres, Nat.succ.inj hd]

/-- **An allOf model puts the same properties into any list, on any part of the chain and with more depth.** -/
theorem collectAllOf_again {depth : Nat} :
    ∀ {chain : Chain} {a : AllOfModel} {into ps : List Property},
      s.collectAllOf depth chain a into = .ok ps →
      ∃ qs, ps = Keyed.putAll Property.name into qs ∧
        ∀ depth' chain', depth ≤ depth' → chain' ⊆ chain → ∀ start,
          s.collectAllOf depth' chain' a start = .ok (Keyed.putAll Property.name start qs) := by
  induction depth using Nat.strongRecOn with
  | ind depth ih =>
    intro chain a into ps h
    rcases collectAllOf_cases depth chain a into with ⟨-, hres⟩ | ⟨-, -, hres⟩ | ⟨hmem, d, hd, hres⟩
    · rw [hres] at h
      exact absurd h (by simp)
    · rw [hres] at h
      exact absurd h (by simp)
    rw [hres] at h
    obtain ⟨supers, hsupers, h⟩ := Outcome.bind_eq_ok.1 h
    obtain ⟨mid, hfold, h⟩ := Outcome.bind_eq_ok.1 h
    obtain ⟨own, hown, h⟩ := Outcome.bind_eq_ok.1 h
    -- each super model has a list that it puts whatever the chain, by induction on the depth
    obtain ⟨lists, hlists, rfl⟩ := foldlM_puts (R := fun b qs => ∀ d' chain', d ≤ d' → chain' ⊆ chain →
      ∀ start, collectSuper (s.collectAllOf d' (chain' ++ [a.name])) a.name start b =
        .ok (Keyed.putAll Property.name start qs)) (by
        intro b _ into mid hb
        cases b with
        | generic g => exact ⟨g.properties, (Except.ok.inj hb).symm, fun _ _ _ _ _ => rfl⟩
        | allOf c =>
          obtain ⟨qs, hmid, hagain⟩ := ih d (by omega) hb
          exact ⟨qs, hmid, fun d' chain' hle hsub start =>
            hagain d' _ hle (append_subset_append hsub _) start⟩
        | enumeration _ | oneOf _ | array _ => exact absurd hb (by simp [collectSuper])) hfold
    refine ⟨lists.flatten ++ own, ?_, ?_⟩
    · rw [Keyed.putAll_append]
      exact (Except.ok.inj h).symm
    · intro depth' chain' hle hsub start
      obtain ⟨d', rfl⟩ : ∃ d', depth' = d' + 1 := ⟨depth' - 1, by omega⟩
      rw [collectAllOf_succ d' (fun hmem' => hmem (hsub hmem')) start, Keyed.putAll_append]
      have hle' : d ≤ d' := by omega
      have hsupers' := foldlM_of_puts (hlists.imp fun b qs hb => hb d' chain' hle' hsub) start
      have hown' := ownPropertiesIn_again hle' (append_subset_append hsub a.name) hown
      exact Outcome.bind_eq_ok.2 ⟨supers, hsupers,
        Outcome.bind_eq_ok.2 ⟨_, hsupers', Outcome.bind_eq_ok.2 ⟨own, hown', rfl⟩⟩⟩

/-! ## §3. All properties. -/

/-- What a super model puts into a list is what all its properties put there. -/
theorem exists_allProperties_of_collectSuper {depth : Nat} (hdepth : depth ≤ s.chainBound) {chain : Chain}
    {name : String} {b : Model} {into ps : List Property}
    (h : collectSuper (s.collectAllOf depth chain) name into b = .ok ps) :
    ∃ qs, ps = Keyed.putAll Property.name into qs ∧ s.allProperties b = .ok qs := by
  cases b with
  | generic g => exact ⟨g.properties, (Except.ok.inj h).symm, rfl⟩
  | allOf c =>
    obtain ⟨qs, hps, hagain⟩ := collectAllOf_again h
    refine ⟨Keyed.putAll Property.name [] qs, ?_, hagain _ [] hdepth (List.nil_subset _) []⟩
    rw [Keyed.putAll_putAll, hps]
  | enumeration _ | oneOf _ | array _ => exact absurd h (by simp [collectSuper])

/-- The properties of an allOf model are those of its super models and its own, put one after the other. -/
theorem allProperties_eq_putAll {a : AllOfModel} {ps : List Property}
    (h : s.allProperties (.allOf a) = .ok ps) :
    ∃ supers lists own, s.superModels a = .ok supers ∧ supers.mapM s.allProperties = .ok lists ∧
      s.ownProperties a = .ok own ∧ ps = Keyed.putAll Property.name [] (lists.flatten ++ own) := by
  have hexpand : s.collectAllOf (s.count + 1) [] a [] = .ok ps := h
  rw [collectAllOf_succ _ List.not_mem_nil] at hexpand
  obtain ⟨supers, hsupers, hexpand⟩ := Outcome.bind_eq_ok.1 hexpand
  obtain ⟨mid, hfold, hexpand⟩ := Outcome.bind_eq_ok.1 hexpand
  obtain ⟨own, hown, hexpand⟩ := Outcome.bind_eq_ok.1 hexpand
  have hle : s.count ≤ s.chainBound := Nat.le_succ _
  obtain ⟨lists, hlists, rfl⟩ := foldlM_puts
    (fun b _ into mid hb => exists_allProperties_of_collectSuper hle hb) hfold
  refine ⟨supers, lists, own, hsupers, Outcome.mapM_eq_ok.2 hlists,
    ownPropertiesIn_again hle (List.Subset.refl _) hown, ?_⟩
  rw [Keyed.putAll_append]
  exact (Except.ok.inj hexpand).symm

/-- **The properties of an allOf model are those of its super models in order, then its own, where a later
one takes the place of an earlier one of the same name:** names are distinct, stand in the order in which they
first come, and each has the property that comes last. -/
theorem allProperties_eq_override {a : AllOfModel} {ps : List Property}
    (h : s.allProperties (.allOf a) = .ok ps) :
    ∃ supers lists own, s.superModels a = .ok supers ∧ supers.mapM s.allProperties = .ok lists ∧
      s.ownProperties a = .ok own ∧ (ps.map (·.name)).Nodup ∧
      ps.map (·.name) = ((lists.flatten ++ own).map (·.name)).eraseDups ∧
      ∀ p ∈ ps, (lists.flatten ++ own).reverse.find? (fun q => q.name = p.name) = some p := by
  obtain ⟨supers, lists, own, hsupers, hlists, hown, rfl⟩ := allProperties_eq_putAll h
  have hdistinct : ((Keyed.putAll Property.name [] (lists.flatten ++ own)).map (·.name)).Nodup :=
    Keyed.nodup_putAll_nil _
  refine ⟨supers, lists, own, hsupers, hlists, hown, hdistinct, Keyed.map_putAll_nil _, ?_⟩
  intro p hp
  have hfound := Keyed.find?_key_of_mem hdistinct hp
  rw [Keyed.find?_putAll] at hfound
  simpa [Keyed.find?] using hfound

end Spec

/-! ## §4. A fork. -/

namespace Fork

/-- The reference to a model of the fork. -/
def target (name : String) : SchemaRef := .toModel "api.yaml" name

/-- An optional property of a primitive type. -/
def plain (name typeName : String) : Property :=
  ⟨name, none, none, false, false, false, false, none, .primitive ⟨typeName, none⟩⟩

def cat : GenericModel := ⟨"Cat", none, [plain "tag" "string", plain "name" "string"]⟩

def dog : GenericModel := ⟨"Dog", none, [plain "tag" "integer", plain "age" "integer"]⟩

def pet : AllOfModel :=
  ⟨"Pet", none, [], [target "Cat", target "Dog"], [[plain "age" "number", plain "note" "string"]]⟩

/-- `Pet` extends `Cat` and `Dog`, which declare `tag` differently, and declares `age` anew. -/
def spec : Spec :=
  .ofModels "api.yaml" ([.generic cat, .generic dog, .allOf pet].map (Declared.mk "api.yaml"))

theorem made : spec.Made := Spec.made_ofModels "api.yaml" _

theorem declares_pet : spec.IsDeclared (.allOf pet) :=
  List.mem_of_getElem? (rfl : spec.arena[2]? = some (.allOf pet))

end Fork

/-- In the fork, the second `tag` stands in the place of the first, and the third `age` in that of the
second. -/
theorem override_in_fork :
    ∃ ps, Fork.spec.allProperties (.allOf Fork.pet) = .ok ps ∧
      ps = [Fork.plain "tag" "integer", Fork.plain "name" "string", Fork.plain "age" "number",
        Fork.plain "note" "string"] ∧
      ∃ supers lists own, Fork.spec.superModels Fork.pet = .ok supers ∧
        supers.mapM Fork.spec.allProperties = .ok lists ∧ Fork.spec.ownProperties Fork.pet = .ok own ∧
        (ps.map (·.name)).Nodup ∧ ps.map (·.name) = ((lists.flatten ++ own).map (·.name)).eraseDups ∧
        ∀ p ∈ ps, (lists.flatten ++ own).reverse.find? (fun q => q.name = p.name) = some p :=
  ⟨_, rfl, rfl, Spec.allProperties_eq_override rfl⟩

end OpenApi
