/-
  OpenApi.Proofs.Composition.Flattening — when the properties of a model can be put together.

  While allOf models are expanded, the chain holds names of distinct models, each of which inherits from the
  one that comes next (`Chain.LeadsTo`). So a name that comes up again is that of a model which inherits from
  itself, and a chain is never longer than the table of models, whatever models look like. Every error is a
  fault of something that is inherited, and a result shows that nothing is. Main statement:
  `exists_allProperties_iff_composable`.
-/
import OpenApi.Proofs.Composition.Inheritance
import OpenApi.Proofs.Outcome
import OpenApi.Proofs.Spec.Runs

namespace OpenApi

open Relation

/-! ## §1. Chains. -/

/-- The chain holds the names of distinct models of the spec, all of which inherit from the model. -/
structure Chain.LeadsTo (s : Spec) (chain : Chain) (m : Model) : Prop where
  distinct : chain.Nodup
  inherits : ∀ name ∈ chain, ∃ c, s.IsDeclared c ∧ c.name = name ∧ TransGen (Spec.Extends s) c m

namespace Chain

variable {s : Spec} {chain : Chain}

theorem leadsTo_nil (s : Spec) (m : Model) : LeadsTo s [] m :=
  ⟨List.nodup_nil, fun _ h => absurd h List.not_mem_nil⟩

/-- A chain is no longer than the table of models. -/
theorem LeadsTo.length_le {m : Model} (h : LeadsTo s chain m) : chain.length ≤ s.count := by
  have hsub : chain ⊆ s.names := by
    intro name hname
    obtain ⟨c, hc, rfl, -⟩ := h.inherits name hname
    exact hc.name_mem
  calc chain.length ≤ s.names.length := h.distinct.length_le_of_subset hsub
    _ = s.count := List.length_map _

/-- A name that comes up again is that of a model which inherits from itself. -/
theorem LeadsTo.inheritsItself {m : Model} (hs : s.NamesDistinct) (h : LeadsTo s chain m)
    (hm : s.IsDeclared m) (hname : m.name ∈ chain) : s.InheritsItself m := by
  obtain ⟨c, hc, hcm, hpath⟩ := h.inherits _ hname
  have heq : c = m := hs.eq_of_name_eq hc hm hcm
  rw [heq] at hpath
  exact hpath

/-- With the name of a model, a chain leads to what that model extends. -/
theorem LeadsTo.enter {a : AllOfModel} {b : Model} (h : LeadsTo s chain (.allOf a))
    (ha : s.IsDeclared (.allOf a)) (hname : a.name ∉ chain) (hb : Spec.Extends s (.allOf a) b) :
    LeadsTo s (chain ++ [a.name]) b := by
  constructor
  · have hdisjoint : ∀ x ∈ chain, ∀ y ∈ [a.name], x ≠ y := by
      intro x hx y hy hxy
      rw [List.mem_singleton.1 hy] at hxy
      exact hname (hxy ▸ hx)
    exact List.nodup_append.2 ⟨h.distinct, List.nodup_singleton _, hdisjoint⟩
  · intro name hmem
    rcases List.mem_append.1 hmem with hmem | hmem
    · obtain ⟨c, hc, hcname, hpath⟩ := h.inherits name hmem
      exact ⟨c, hc, hcname, hpath.tail hb⟩
    · exact ⟨.allOf a, ha, (List.mem_singleton.1 hmem).symm, .single hb⟩

/-- What entering a name gives. -/
theorem enter_eq (chain : Chain) (name : String) :
    (name ∈ chain ∧ chain.enter name = .error (chain.cycleError name)) ∨
      (name ∉ chain ∧ chain.enter name = .ok (chain ++ [name])) := by
  unfold Chain.enter
  by_cases h : name ∈ chain
  · exact .inl ⟨h, by simp [h]⟩
  · exact .inr ⟨h, by simp [h]⟩

end Chain

namespace Spec

variable {s : Spec} {property : String}

/-! ## §2. Finding one property. -/

theorem firstInSupers_eq_error {look : Model → Except Error (Option Property)} {e : Error}
    {supers : List SchemaRef} (h : s.firstInSupers look supers = .error e) :
    (∃ r ∈ supers, s.getModel r = .error e) ∨
      ∃ r ∈ supers, ∃ b, s.getModel r = .ok b ∧ look b = .error e := by
  induction supers with
  | nil => exact absurd h (by simp [firstInSupers])
  | cons r rest ih =>
    unfold firstInSupers at h
    obtain hget | ⟨b, hget, h⟩ := Outcome.bind_eq_error.1 h
    · exact .inl ⟨r, List.mem_cons_self, hget⟩
    obtain hlook | ⟨found, hlook, h⟩ := Outcome.bind_eq_error.1 h
    · exact .inr ⟨r, List.mem_cons_self, b, hget, hlook⟩
    cases found with
    | some p => exact absurd h (by simp [pure, Except.pure])
    | none =>
      rcases ih h with ⟨q, hq, hrest⟩ | ⟨q, hq, hrest⟩
      · exact .inl ⟨q, List.mem_cons_of_mem _ hq, hrest⟩
      · exact .inr ⟨q, List.mem_cons_of_mem _ hq, hrest⟩

theorem firstInSupers_eq_some {look : Model → Except Error (Option Property)} {p : Property}
    {supers : List SchemaRef} (h : s.firstInSupers look supers = .ok (some p)) :
    ∃ r ∈ supers, ∃ b, s.getModel r = .ok b ∧ look b = .ok (some p) := by
  induction supers with
  | nil => exact absurd h (by simp [firstInSupers])
  | cons r rest ih =>
    unfold firstInSupers at h
    obtain ⟨b, hget, h⟩ := Outcome.bind_eq_ok.1 h
    obtain ⟨found, hlook, h⟩ := Outcome.bind_eq_ok.1 h
    cases found with
    | some q =>
      have hq : q = p := by simpa [pure, Except.pure] using h
      exact ⟨r, List.mem_cons_self, b, hget, hq ▸ hlook⟩
    | none =>
      obtain ⟨q, hq, hrest⟩ := ih h
      exact ⟨q, List.mem_cons_of_mem _ hq, hrest⟩

theorem firstInSupers_eq_none {look : Model → Except Error (Option Property)}
    {supers : List SchemaRef} (h : s.firstInSupers look supers = .ok none) :
    ∀ r ∈ supers, ∃ b, s.getModel r = .ok b ∧ look b = .ok none := by
  induction supers with
  | nil => exact fun r hr => absurd hr List.not_mem_nil
  | cons r rest ih =>
    unfold firstInSupers at h
    obtain ⟨b, hget, h⟩ := Outcome.bind_eq_ok.1 h
    obtain ⟨found, hlook, h⟩ := Outcome.bind_eq_ok.1 h
    cases found with
    | some q => exact absurd h (by simp [pure, Except.pure])
    | none =>
      intro q hq
      rcases List.mem_cons.1 hq with rfl | hq
      · exact ⟨b, hget, hlook⟩
      · exact ih h q hq

theorem findProperty_generic (depth : Nat) (chain : Chain) (g : GenericModel) :
    s.findProperty property depth chain (.generic g) = .ok (g.property? property) := by
  simp [findProperty]

/-- Nothing is found in a model that is no object. -/
theorem findProperty_of_isObject {m : Model} (h : m.isObject = false) (depth : Nat) (chain : Chain) :
    s.findProperty property depth chain m = .ok none := by
  cases m with
  | generic _ => exact absurd h (by simp [Model.isObject])
  | allOf _ => exact absurd h (by simp [Model.isObject])
  | enumeration _ => simp [findProperty]
  | oneOf _ => simp [findProperty]
  | array _ => simp [findProperty]

/-- What looking into an allOf model does: it meets a cycle, finds the property inline, stops at the limit
of depth, or looks into the super models. -/
theorem findProperty_allOf (depth : Nat) (chain : Chain) (a : AllOfModel) :
    (a.name ∈ chain ∧
      s.findProperty property depth chain (.allOf a) = .error (chain.cycleError a.name)) ∨
    (a.name ∉ chain ∧ ∃ p, a.inlineProperty? property = some p ∧
      s.findProperty property depth chain (.allOf a) = .ok (some p)) ∨
    (a.name ∉ chain ∧ a.inlineProperty? property = none ∧ depth = 0 ∧
      s.findProperty property depth chain (.allOf a) = .error depthError) ∨
    (a.name ∉ chain ∧ a.inlineProperty? property = none ∧ ∃ d, depth = d + 1 ∧
      s.findProperty property depth chain (.allOf a) =
        s.firstInSupers (lookChecked a.name (s.findProperty property d (chain ++ [a.name]))) a.supers) := by
  -- the cases are those of the recursion: a cycle, an inline property, the limit of depth, the super models
  rcases chain.enter_eq a.name with ⟨hmem, henter⟩ | ⟨hmem, henter⟩
  · refine .inl ⟨hmem, ?_⟩
    unfold findProperty
    rw [henter]
    rfl
  cases hinline : a.inlineProperty? property with
  | some p =>
    refine .inr (.inl ⟨hmem, p, rfl, ?_⟩)
    unfold findProperty
    rw [henter, hinline]
    rfl
  | none =>
    cases depth with
    | zero =>
      refine .inr (.inr (.inl ⟨hmem, rfl, rfl, ?_⟩))
      unfold findProperty
      rw [henter, hinline]
      rfl
    | succ d =>
      refine .inr (.inr (.inr ⟨hmem, rfl, d, rfl, ?_⟩))
      conv_lhs => unfold findProperty
      rw [henter, hinline]
      rfl

theorem lookChecked_eq_ok {name : String} {look : Model → Except Error (Option Property)} {b : Model}
    {found : Option Property} (h : lookChecked name look b = .ok found) : look b = .ok found := by
  unfold lookChecked at h
  split at h
  next => exact h
  next => exact absurd h (by simp)

theorem lookChecked_eq_error {name : String} {look : Model → Except Error (Option Property)}
    {b : Model} {e : Error} (h : lookChecked name look b = .error e) :
    (b.isObject = false ∧ e = superError name b) ∨ look b = .error e := by
  unfold lookChecked at h
  split at h
  next => exact .inr h
  next hobject => exact .inl ⟨by simpa using hobject, (Except.error.inj h).symm⟩

/-- A property that is found has the name, and the model or one that it inherits from declares it. -/
theorem declared_of_findProperty {depth : Nat} :
    ∀ {chain : Chain} {m : Model} {p : Property},
      s.findProperty property depth chain m = .ok (some p) →
      p.name = property ∧ ∃ c, s.Inherits m c ∧ p ∈ c.declared := by
  -- the depth goes down with each super model that is entered, so it carries the induction
  induction depth using Nat.strongRecOn with
  | ind depth ih =>
    intro chain m p h
    cases m with
    | generic g =>
      rw [findProperty_generic] at h
      obtain ⟨hp, hname⟩ := Keyed.find?_eq_some (Except.ok.inj h)
      exact ⟨hname, _, .refl, hp⟩
    | allOf a =>
      rcases findProperty_allOf depth chain a with
        ⟨-, hres⟩ | ⟨-, q, hq, hres⟩ | ⟨-, -, -, hres⟩ | ⟨-, -, d, hdepth, hres⟩
      · rw [hres] at h
        exact absurd h (by simp)
      · rw [hres] at h
        obtain ⟨hmem, hname⟩ := AllOfModel.inlineProperty?_eq_some hq
        rw [← Option.some.inj (Except.ok.inj h)]
        exact ⟨hname, _, .refl, hmem⟩
      · rw [hres] at h
        exact absurd h (by simp)
      · rw [hres] at h
        -- the super model that has the property declares it, or inherits from one that does
        obtain ⟨r, hr, b, hget, hlook⟩ := firstInSupers_eq_some h
        obtain ⟨hname, c, hc, hp⟩ := ih d (by omega) (lookChecked_eq_ok hlook)
        exact ⟨hname, c, .head (.super hr hget) hc, hp⟩
    | enumeration _ | oneOf _ | array _ =>
      rw [findProperty_of_isObject rfl] at h
      exact absurd h (by simp)

/-- A property that is found is carried. -/
theorem carries_of_findProperty {depth : Nat} {chain : Chain} {m : Model} {p : Property}
    (h : s.findProperty property depth chain m = .ok (some p)) : s.Carries property m := by
  obtain ⟨hname, c, hc, hp⟩ := declared_of_findProperty h
  exact ⟨c, hc, p, hp, hname⟩

/-- A property that is not found is not carried. -/
theorem not_carries_of_findProperty {depth : Nat} :
    ∀ {chain : Chain} {m : Model},
      s.findProperty property depth chain m = .ok none → ¬ s.Carries property m := by
  -- a lookup that finds nothing has looked into all super models, so no way to the property is missed
  induction depth using Nat.strongRecOn with
  | ind depth ih =>
    rintro chain m h ⟨c, hc, p, hp, hname⟩
    cases m with
    | generic g =>
      rw [findProperty_generic] at h
      rcases ReflTransGen.cases_head hc with rfl | ⟨b, hb, -⟩
      · exact Keyed.find?_eq_none.1 (Except.ok.inj h) p hp hname
      · cases hb
    | allOf a =>
      rcases findProperty_allOf depth chain a with
        ⟨-, hres⟩ | ⟨-, q, -, hres⟩ | ⟨-, -, -, hres⟩ | ⟨-, hinline, d, hdepth, hres⟩
      · rw [hres] at h
        exact absurd h (by simp)
      · rw [hres] at h
        exact absurd h (by simp)
      · rw [hres] at h
        exact absurd h (by simp)
      · rw [hres] at h
        rcases ReflTransGen.cases_head hc with rfl | ⟨b, hb, hrest⟩
        · exact AllOfModel.inlineProperty?_eq_none.1 hinline ⟨p, hp, hname⟩
        · cases hb with
          | super hr hget =>
            obtain ⟨b', hb', hlook⟩ := firstInSupers_eq_none h _ hr
            rw [hget] at hb'
            rw [← Except.ok.inj hb'] at hlook
            exact ih d (by omega) (lookChecked_eq_ok hlook) ⟨c, hrest, p, hp, hname⟩
    | enumeration _ | oneOf _ | array _ =>
      rcases ReflTransGen.cases_head hc with rfl | ⟨b, hb, -⟩
      · exact absurd hp List.not_mem_nil
      · cases hb

/-- A failure to find a property is a fault of the model. -/
theorem fault_of_findProperty (hs : s.NamesDistinct) {depth : Nat} :
    ∀ {chain : Chain} {m : Model} {e : Error}, s.IsDeclared m → chain.LeadsTo s m →
      s.count < depth + chain.length →
      s.findProperty property depth chain m = .error e → s.Fault m e := by
  -- on the depth: with each model entered, the chain grows by what the depth loses
  induction depth using Nat.strongRecOn with
  | ind depth ih =>
    intro chain m e hm hchain hdepth h
    cases m with
    | generic g =>
      rw [findProperty_generic] at h
      exact absurd h (by simp)
    | allOf a =>
      rcases findProperty_allOf depth chain a with
        ⟨hmem, hres⟩ | ⟨-, q, -, hres⟩ | ⟨-, -, hzero, -⟩ | ⟨hmem, -, d, hd, hres⟩
      · rw [hres] at h
        rw [← Except.error.inj h]
        exact .cycle .refl (hchain.inheritsItself hs hm hmem)
      · rw [hres] at h
        exact absurd h (by simp)
      · have hle := hchain.length_le
        omega
      · rw [hres] at h
        rcases firstInSupers_eq_error h with ⟨r, hr, hget⟩ | ⟨r, hr, b, hget, hlook⟩
        · exact .unresolved .refl hr hget
        · have hb : Extends s (.allOf a) b := .super hr hget
          rcases lookChecked_eq_error hlook with ⟨hobject, rfl⟩ | hlook
          · exact .notAnObject .refl hr hget hobject
          · refine .of_extends hb
              (ih d (by omega) hb.isDeclared (hchain.enter hm hmem hb) ?_ hlook)
            rw [List.length_append, List.length_singleton]
            omega
    | enumeration _ | oneOf _ | array _ =>
      rw [findProperty_of_isObject rfl] at h
      exact absurd h (by simp)

/-! ## §3. Own properties. -/

theorem requiredInherited_eq_error {depth : Nat} {chain : Chain} {a : AllOfModel} {e : Error}
    {names : List String} (h : s.requiredInherited depth chain a names = .error e) :
    (∃ name ∈ names, ¬ a.DeclaresInline name ∧ e = missingProperty name a.name ∧
      s.firstInSupers (s.findProperty name depth chain) a.supers = .ok none) ∨
    ∃ name, s.firstInSupers (s.findProperty name depth chain) a.supers = .error e := by
  induction names with
  | nil => exact absurd h (by simp [requiredInherited])
  | cons name rest ih =>
    -- what fails further down the list fails for the whole list; this is used where the first name passes
    have hrest : s.requiredInherited depth chain a rest = .error e →
        (∃ n ∈ name :: rest, ¬ a.DeclaresInline n ∧ e = missingProperty n a.name ∧
          s.firstInSupers (s.findProperty n depth chain) a.supers = .ok none) ∨
        ∃ n, s.firstInSupers (s.findProperty n depth chain) a.supers = .error e := by
      intro hfail
      rcases ih hfail with ⟨n, hn, hlacks⟩ | herror
      · exact .inl ⟨n, List.mem_cons_of_mem _ hn, hlacks⟩
      · exact .inr herror
    unfold requiredInherited at h
    split at h
    next => exact hrest h
    next hinline =>
      have hnot : ¬ a.DeclaresInline name :=
        AllOfModel.inlineProperty?_eq_none.1 (by simpa using hinline)
      obtain hfind | ⟨found, hfind, h⟩ := Outcome.bind_eq_error.1 h
      · exact .inr ⟨name, hfind⟩
      cases found with
      | none => exact .inl ⟨name, List.mem_cons_self, hnot, (Except.error.inj h).symm, hfind⟩
      | some p =>
        obtain hmore | ⟨more, -, h⟩ := Outcome.bind_eq_error.1 h
        · exact hrest hmore
        · exact absurd h (by simp [pure, Except.pure])

theorem requiredInherited_eq_ok {depth : Nat} {chain : Chain} {a : AllOfModel} {names : List String} :
    ∀ {ps : List Property}, s.requiredInherited depth chain a names = .ok ps →
      ∀ name ∈ names, ¬ a.DeclaresInline name →
        ∃ p, s.firstInSupers (s.findProperty name depth chain) a.supers = .ok (some p) := by
  induction names with
  | nil => exact fun _ _ hname => absurd hname List.not_mem_nil
  | cons n rest ih =>
    intro ps h name hname hinline
    unfold requiredInherited at h
    split at h
    next hn =>
      -- a name that is declared inline is passed over, so it is not the one in question
      have hne : name ≠ n := by
        rintro rfl
        rw [AllOfModel.inlineProperty?_eq_none.2 hinline] at hn
        exact absurd hn (by simp)
      exact ih h name ((List.mem_cons.1 hname).resolve_left hne) hinline
    next =>
      obtain ⟨found, hfind, h⟩ := Outcome.bind_eq_ok.1 h
      cases found with
      | none => exact absurd h (by simp)
      | some p =>
        obtain ⟨more, hmore, -⟩ := Outcome.bind_eq_ok.1 h
        rcases List.mem_cons.1 hname with rfl | hname
        · exact ⟨p, hfind⟩
        · exact ih hmore name hname hinline

/-- A failure to put the own properties together is a fault of the model, where the chain leads to
what the model extends. -/
theorem fault_of_ownPropertiesIn (hs : s.NamesDistinct) {depth : Nat} {chain : Chain} {a : AllOfModel}
    {e : Error} (hchain : ∀ b, Extends s (.allOf a) b → chain.LeadsTo s b)
    (hdepth : s.count < depth + chain.length)
    (h : s.ownPropertiesIn depth chain a = .error e) : s.Fault (.allOf a) e := by
  unfold ownPropertiesIn at h
  obtain h | ⟨inherited, -, h⟩ := Outcome.bind_eq_error.1 h
  -- only the search for required names can fail: it finds none, or it fails in a super model itself
  · rcases requiredInherited_eq_error h with ⟨name, hname, hinline, rfl, hnone⟩ | ⟨name, herror⟩
    · refine .lacking .refl hname hinline ?_
      intro b hb
      cases hb with
      | super hr hget =>
        obtain ⟨c, hc, hfind⟩ := firstInSupers_eq_none hnone _ hr
        rw [hget] at hc
        rw [Except.ok.inj hc]
        exact not_carries_of_findProperty hfind
    · rcases firstInSupers_eq_error herror with ⟨r, hr, hget⟩ | ⟨r, hr, b, hget, hfind⟩
      · exact .unresolved .refl hr hget
      · have hb : Extends s (.allOf a) b := .super hr hget
        exact .of_extends hb
          (fault_of_findProperty hs hb.isDeclared (hchain b hb) hdepth hfind)
  · exact absurd h (by simp [pure, Except.pure])

/-! ## §4. All properties. -/

/-- What expanding an allOf model does: it meets a cycle, stops at the limit of depth, or takes the
properties of the super models in turn and then its own. -/
theorem collectAllOf_cases (depth : Nat) (chain : Chain) (a : AllOfModel) (into : List Property) :
    (a.name ∈ chain ∧ s.collectAllOf depth chain a into = .error (chain.cycleError a.name)) ∨
    (a.name ∉ chain ∧ depth = 0 ∧ s.collectAllOf depth chain a into = .error depthError) ∨
    (a.name ∉ chain ∧ ∃ d, depth = d + 1 ∧ s.collectAllOf depth chain a into = do
      let supers ← s.superModels a
      let into ← supers.foldlM (collectSuper (s.collectAllOf d (chain ++ [a.name])) a.name) into
      let own ← s.ownPropertiesIn d (chain ++ [a.name]) a
      pure (Keyed.putAll Property.name into own)) := by
  -- the cases are those of the recursion: a cycle, the limit of depth, one more step
  rcases chain.enter_eq a.name with ⟨hmem, henter⟩ | ⟨hmem, henter⟩
  · refine .inl ⟨hmem, ?_⟩
    unfold collectAllOf
    rw [henter]
    rfl
  cases depth with
  | zero =>
    refine .inr (.inl ⟨hmem, rfl, ?_⟩)
    unfold collectAllOf
    rw [henter]
    rfl
  | succ d =>
    refine .inr (.inr ⟨hmem, d, rfl, ?_⟩)
    conv_lhs => unfold collectAllOf
    rw [henter]
    rfl

theorem superModels_eq_error {a : AllOfModel} {e : Error} (h : s.superModels a = .error e) :
    ∃ r ∈ a.supers, s.getModel r = .error e := Outcome.mapM_eq_error h

/-- The models that an allOf model extends are those found for its super references. -/
theorem mem_superModels {a : AllOfModel} {supers : List Model} (h : s.superModels a = .ok supers)
    {b : Model} : b ∈ supers ↔ Extends s (.allOf a) b := by
  have hall := Outcome.mapM_eq_ok.1 h
  constructor
  · intro hb
    obtain ⟨r, hr, hget⟩ := Outcome.exists_left hall hb
    exact .super hr hget
  · intro hb
    cases hb with
    | super hr hget =>
      obtain ⟨c, hc, hgetc⟩ := Outcome.exists_right hall hr
      rw [hget] at hgetc
      exact Except.ok.inj hgetc ▸ hc

/-- A failure to put the properties of an allOf model together is a fault of the model. -/
theorem fault_of_collectAllOf (hs : s.NamesDistinct) {depth : Nat} :
    ∀ {chain : Chain} {a : AllOfModel} {into : List Property} {e : Error},
      s.IsDeclared (.allOf a) → chain.LeadsTo s (.allOf a) →
      s.count < depth + chain.length →
      s.collectAllOf depth chain a into = .error e → s.Fault (.allOf a) e := by
  induction depth using Nat.strongRecOn with
  | ind depth ih =>
    intro chain a into e ha hchain hdepth h
    rcases collectAllOf_cases depth chain a into with
      ⟨hmem, hres⟩ | ⟨-, hzero, -⟩ | ⟨hmem, d, hd, hres⟩
    · rw [hres] at h
      rw [← Except.error.inj h]
      exact .cycle .refl (hchain.inheritsItself hs ha hmem)
    -- a chain that is longer than the table of models would hold a name twice, so the limit is not met
    · have hle := hchain.length_le
      omega
    · rw [hres] at h
      have hdeep : s.count < d + (chain ++ [a.name]).length := by
        rw [List.length_append, List.length_singleton]
        omega
      -- a reference may lead nowhere, a super model may have a fault, or a required name may be missing
      obtain hsupers | ⟨supers, hsupers, h⟩ := Outcome.bind_eq_error.1 h
      · obtain ⟨r, hr, hget⟩ := superModels_eq_error hsupers
        exact .unresolved .refl hr hget
      obtain hfold | ⟨inherited, -, h⟩ := Outcome.bind_eq_error.1 h
      · obtain ⟨b, hb, into, hcollect⟩ := Outcome.foldlM_eq_error hfold
        have hext : Extends s (.allOf a) b := (mem_superModels hsupers).1 hb
        cases b with
        | generic g => exact absurd hcollect (by simp [collectSuper])
        | allOf c =>
          exact .of_extends hext
            (ih d (by omega) hext.isDeclared (hchain.enter ha hmem hext) hdeep hcollect)
        | enumeration _ | oneOf _ | array _ =>
          rw [← Except.error.inj hcollect]
          cases hext with
          | super hr hget => exact .notAnObject .refl hr hget rfl
      obtain hown | ⟨own, -, h⟩ := Outcome.bind_eq_error.1 h
      · exact fault_of_ownPropertiesIn hs (fun b hb => hchain.enter ha hmem hb) hdeep hown
      · exact absurd h (by simp [pure, Except.pure])

/-! ## §5. What a result shows. -/

/-- The properties of the model were put together while the models of the chain were being expanded. -/
def Expanded (s : Spec) (chain : Chain) (a : AllOfModel) : Prop :=
  ∃ depth into ps, s.collectAllOf depth chain a into = .ok ps

/-- What was expanded is not on the chain, its super models are objects, those that are allOf models were
expanded as well, and its own properties were found. -/
theorem Expanded.inv {chain : Chain} {a : AllOfModel} (h : s.Expanded chain a) :
    a.name ∉ chain ∧ (∀ r ∈ a.supers, ∃ b, s.getModel r = .ok b ∧ b.isObject = true) ∧
    (∀ c, Extends s (.allOf a) (.allOf c) → s.Expanded (chain ++ [a.name]) c) ∧
    ∃ depth own, s.ownPropertiesIn depth (chain ++ [a.name]) a = .ok own := by
  obtain ⟨depth, into, ps, h⟩ := h
  -- an expansion that succeeds took the step, so each of its parts succeeded
  rcases collectAllOf_cases depth chain a into with ⟨-, hres⟩ | ⟨-, -, hres⟩ | ⟨hmem, d, -, hres⟩
  · rw [hres] at h
    exact absurd h (by simp)
  · rw [hres] at h
    exact absurd h (by simp)
  rw [hres] at h
  obtain ⟨supers, hsupers, h⟩ := Outcome.bind_eq_ok.1 h
  obtain ⟨inherited, hfold, h⟩ := Outcome.bind_eq_ok.1 h
  obtain ⟨own, hown, -⟩ := Outcome.bind_eq_ok.1 h
  have hcollect := Outcome.foldlM_eq_ok hfold
  refine ⟨hmem, ?_, ?_, d, own, hown⟩
  · intro r hr
    obtain ⟨b, hb, hget⟩ := Outcome.exists_right (Outcome.mapM_eq_ok.1 hsupers) hr
    obtain ⟨i, o, hsuper⟩ := hcollect b hb
    refine ⟨b, hget, ?_⟩
    cases b with
    | generic _ | allOf _ => rfl
    | enumeration _ | oneOf _ | array _ => exact absurd hsuper (by simp [collectSuper])
  · intro c hc
    obtain ⟨i, o, hsuper⟩ := hcollect _ ((mem_superModels hsupers).2 hc)
    exact ⟨d, i, o, hsuper⟩

/-- Everything that super references lead to was expanded, on a chain that goes on from this one. -/
theorem Expanded.of_transGen {m : Model} {b : AllOfModel} (h : TransGen (Extends s) m (.allOf b)) :
    ∀ {chain : Chain} {a : AllOfModel}, m = .allOf a → s.Expanded chain a →
      ∃ chain', s.Expanded chain' b ∧ chain ++ [a.name] ⊆ chain' := by
  induction h using TransGen.head_induction_on with
  | single hext =>
    rintro chain a rfl ha
    exact ⟨_, ha.inv.2.2.1 b hext, List.Subset.refl _⟩
  | @head _ mid hext hrest ih =>
    rintro chain a rfl ha
    -- only allOf models extend others, so the model in between is one
    have hmid : ∃ c, mid = Model.allOf c := by
      obtain ⟨x, hx, -⟩ := TransGen.head'_iff.1 hrest
      cases hx with
      | super => exact ⟨_, rfl⟩
    obtain ⟨c, rfl⟩ := hmid
    obtain ⟨chain', hb, hsub⟩ := ih rfl (ha.inv.2.2.1 c hext)
    exact ⟨chain', hb, fun x hx => hsub (List.mem_append_left _ hx)⟩

/-- What was expanded is composable. -/
theorem Expanded.composable {chain : Chain} {a : AllOfModel} (h : s.Expanded chain a) :
    s.Composable a := by
  obtain ⟨-, hobjects, -, depth, own, hown⟩ := h.inv
  refine ⟨hobjects, ?_, ?_⟩
  · intro hcycle
    obtain ⟨chain', ha, hsub⟩ := h.of_transGen hcycle rfl
    exact ha.inv.1 (hsub (List.mem_append_right _ List.mem_cons_self))
  · intro name hname hinline
    unfold ownPropertiesIn at hown
    obtain ⟨inherited, hinherited, -⟩ := Outcome.bind_eq_ok.1 hown
    obtain ⟨p, hfirst⟩ := requiredInherited_eq_ok hinherited name hname hinline
    obtain ⟨r, hr, b, hget, hfind⟩ := firstInSupers_eq_some hfirst
    exact ⟨b, .super hr hget, carries_of_findProperty hfind⟩

/-- All that an expanded model inherits from is composable. -/
theorem Expanded.inherits {chain : Chain} {a b : AllOfModel} (h : s.Expanded chain a)
    (hb : s.Inherits (.allOf a) (.allOf b)) : s.Composable b := by
  rcases reflTransGen_iff_eq_or_transGen.1 hb with heq | hpath
  · rw [Model.allOf.inj heq]
    exact h.composable
  · obtain ⟨chain', hb, -⟩ := Expanded.of_transGen hpath rfl h
    exact hb.composable

/-! ## §6. Models of a spec. -/

/-- A failure to put the properties of a model of a spec together is a fault of the model. -/
theorem fault_of_allProperties (hs : s.NamesDistinct) {m : Model} (hm : s.IsDeclared m) {e : Error}
    (h : s.allProperties m = .error e) : s.Fault m e := by
  cases m with
  | allOf a => exact fault_of_collectAllOf hs hm (Chain.leadsTo_nil s _) (Nat.lt_succ_self _) h
  | generic _ | enumeration _ | oneOf _ | array _ => exact absurd h (by simp [allProperties])

/-- All that a model inherits from is composable where its properties can be put together. -/
theorem composable_of_allProperties {m : Model} {ps : List Property} (h : s.allProperties m = .ok ps)
    {b : AllOfModel} (hb : s.Inherits m (.allOf b)) : s.Composable b := by
  cases m with
  | allOf a => exact Expanded.inherits ⟨_, _, ps, h⟩ hb
  | generic _ | enumeration _ | oneOf _ | array _ =>
    rcases ReflTransGen.cases_head hb with heq | ⟨c, hc, -⟩
    · exact Model.noConfusion heq
    · cases hc

/-- A search succeeds where all properties can be put together. -/
theorem exists_getProperty_of_allProperties (hs : s.NamesDistinct) {m : Model} (hm : s.IsDeclared m)
    {ps : List Property} (h : s.allProperties m = .ok ps) (name : String) :
    ∃ found, s.getProperty m name = .ok found :=
  Outcome.exists_ok fun _ he =>
    not_fault_of_composable (fun _ ha => composable_of_allProperties h ha)
      (fault_of_findProperty hs hm (Chain.leadsTo_nil s m) (Nat.lt_succ_self _) he)

/-- **The properties of an allOf model can be put together exactly if all that it inherits from, itself
included, is composable.** Otherwise the error is that of a fault: none is reported by the limit of depth,
and none as a cycle unless a model inherits from itself, however many paths lead to a super model. -/
theorem exists_allProperties_iff_composable (hs : s.Made) {a : AllOfModel}
    (ha : s.IsDeclared (.allOf a)) :
    ((∃ ps, s.allProperties (.allOf a) = .ok ps) ↔
      ∀ b, s.Inherits (.allOf a) (.allOf b) → s.Composable b) ∧
    (∀ e, s.allProperties (.allOf a) = .error e → e ≠ depthError ∧ s.Fault (.allOf a) e) ∧
    (∀ names, s.allProperties (.allOf a) = .error (.ofViolation (.cyclicInheritance names)) →
      ∃ b, s.Inherits (.allOf a) (.allOf b) ∧ s.InheritsItself (.allOf b)) := by
  have hfault := fun e => fault_of_allProperties hs.namesDistinct ha (e := e)
  refine ⟨⟨?_, ?_⟩, ?_, ?_⟩
  · rintro ⟨ps, h⟩ b hb
    exact composable_of_allProperties h hb
  · intro h
    exact Outcome.exists_ok fun e he => not_fault_of_composable h (hfault e he)
  · exact fun e he => ⟨(hfault e he).ne_depthError, hfault e he⟩
  · exact fun names he => (hfault _ he).cyclic

end Spec

/-! ## §7. A diamond. -/

namespace Diamond

/-- The reference to a model of the diamond. -/
def target (name : String) : SchemaRef := .toModel "api.yaml" name

/-- A read-only property that is required. -/
def key (name : String) : Property :=
  ⟨name, none, none, true, true, false, false, none, .primitive ⟨"string", none⟩⟩

/-- An optional property that refers to a model of the diamond. -/
def link (name model : String) : Property :=
  ⟨name, none, none, false, false, false, false, none, .ref (target model)⟩

/-- An optional property that leads nowhere. -/
def plain (name : String) : Property :=
  ⟨name, none, none, false, false, false, false, none, .primitive ⟨"string", none⟩⟩

def entity : GenericModel := ⟨"Entity", none, [key "id", plain "note"]⟩

def left : AllOfModel := ⟨"Left", none, [], [target "Entity"], []⟩

def right : AllOfModel := ⟨"Right", none, [], [target "Entity"], [[link "left" "Left"]]⟩

def node : AllOfModel :=
  ⟨"Node", none, ["id"], [target "Left", target "Right"], [[link "next" "Node"]]⟩

/-- `Node` extends `Left` and `Right`, both of which extend `Entity`. -/
def spec : Spec :=
  .ofModels "api.yaml" ([.generic entity, .allOf left, .allOf right, .allOf node].map (Declared.mk "api.yaml"))

theorem made : spec.Made := Spec.made_ofModels "api.yaml" _

theorem declares_node : spec.IsDeclared (.allOf node) :=
  List.mem_of_getElem? (rfl : spec.arena[3]? = some (.allOf node))

end Diamond

/-- All that the bottom of the diamond inherits from is composable, as its properties show. -/
theorem composable_of_diamond :
    Diamond.spec.Made ∧ Diamond.spec.IsDeclared (.allOf Diamond.node) ∧
      (∀ b, Diamond.spec.Inherits (.allOf Diamond.node) (.allOf b) → Diamond.spec.Composable b) :=
  ⟨Diamond.made, Diamond.declares_node,
    (Spec.exists_allProperties_iff_composable Diamond.made Diamond.declares_node).1.1 ⟨_, rfl⟩⟩

end OpenApi
