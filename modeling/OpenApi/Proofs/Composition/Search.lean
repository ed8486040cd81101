/-
  OpenApi.Proofs.Composition.Search — looking one property up, and listing them all.

  A search ends at the first property of a name: among the inline ones, then in each super model in turn. A
  list keeps the last one. Both find a property under the same names (`carries_iff_listed`), but where a name is
  declared more than once they may find different ones. They agree but for `required` where the name is
  unambiguous. Main statement: `getProperty_agrees`.
-/
import OpenApi.Proofs.Composition.Origin
import OpenApi.Proofs.Composition.Override

namespace OpenApi

open Relation

/-- The properties are equal, but one may be required where the other is not. -/
def Property.Alike (p q : Property) : Prop := p.withRequired true = q.withRequired true

namespace Property.Alike

theorem refl (p : Property) : p.Alike p := rfl

theorem trans {p q r : Property} (h : p.Alike q) (h' : q.Alike r) : p.Alike r := Eq.trans h h'

theorem withRequired (p : Property) (required : Bool) : p.Alike (p.withRequired required) := rfl

end Property.Alike

/-- The first inline property of a name, whatever object it stands in. -/
theorem AllOfModel.inlineProperty?_eq_find? (a : AllOfModel) (name : String) :
    a.inlineProperty? name = Keyed.find? Property.name name a.inlineSupers.flatten :=
  List.find?_flatten.symm

namespace Spec

variable {s : Spec}

/-! ## §1. Searching an allOf model. -/

theorem getProperty_inline {a : AllOfModel} {name : String} {p : Property}
    (h : a.inlineProperty? name = some p) : s.getProperty (.allOf a) name = .ok (some p) :=
  findProperty_inline _ List.not_mem_nil h

/-- What is not declared inline is searched in the super models, on the chain that the model starts or each on
its own. -/
theorem getProperty_supers {a : AllOfModel} {name : String} (hinline : a.inlineProperty? name = none)
    {found : Option Property} (h : s.getProperty (.allOf a) name = .ok found) :
    s.firstInSupers (s.findProperty name s.chainBound [a.name]) a.supers = .ok found ∧
      s.firstInSupers (fun b => s.getProperty b name) a.supers = .ok found := by
  have hsearch : s.findProperty name (s.count + 1) [] (.allOf a) = .ok found := h
  rw [findProperty_supers _ List.not_mem_nil hinline] at hsearch
  have hfirst := firstInSupers_again (fun b r hb => lookChecked_eq_ok hb) hsearch
  have hdeep : s.count ≤ s.chainBound := Nat.le_succ _
  exact ⟨firstInSupers_again (fun b r hb => findProperty_again hb hdeep (List.Subset.refl _)) hfirst,
    firstInSupers_again (fun b r hb => findProperty_again hb hdeep (List.nil_subset _)) hfirst⟩

/-! ## §2. Where listed properties come from. -/

/-- Each property that a model inherits and requires is the one that is found, made required. -/
theorem requiredInherited_found {depth : Nat} {chain : Chain} {a : AllOfModel} {names : List String} :
    ∀ {ps : List Property}, s.requiredInherited depth chain a names = .ok ps → ∀ q ∈ ps,
      q.name ∈ names ∧ a.inlineProperty? q.name = none ∧
        ∃ p, q = p.withRequired true ∧
          s.firstInSupers (s.findProperty q.name depth chain) a.supers = .ok (some p) := by
  induction names with
  | nil =>
    intro ps h q hq
    rw [← Except.ok.inj h] at hq
    exact absurd hq List.not_mem_nil
  | cons name rest ih =>
    intro ps h q hq
    unfold requiredInherited at h
    split at h
    next =>
      obtain ⟨hname, hrest⟩ := ih h q hq
      exact ⟨List.mem_cons_of_mem _ hname, hrest⟩
    next hinline =>
      obtain ⟨found, hfound, h⟩ := Outcome.bind_eq_ok.1 h
      cases found with
      | none => exact absurd h (by simp)
      | some p =>
        obtain ⟨more, hmore, h⟩ := Outcome.bind_eq_ok.1 h
        rw [← Except.ok.inj h] at hq
        rcases List.mem_cons.1 hq with rfl | hq
        -- what a search for the name finds has that name, so the name of the entry is the required one
        · obtain ⟨r, -, b, -, hfind⟩ := firstInSupers_eq_some hfound
          have hname : (p.withRequired true).name = name := (declared_of_findProperty hfind).1
          rw [hname]
          exact ⟨List.mem_cons_self, by simpa using hinline, p, rfl, hfound⟩
        · obtain ⟨hname, hrest⟩ := ih hmore q hq
          exact ⟨List.mem_cons_of_mem _ hname, hrest⟩

/-- A model has an own property for each name that it requires without declaring it inline. -/
theorem requiredInherited_has {depth : Nat} {chain : Chain} {a : AllOfModel} {name : String}
    (hinline : a.inlineProperty? name = none) {names : List String} :
    ∀ {ps : List Property}, s.requiredInherited depth chain a names = .ok ps → name ∈ names →
      ∃ q ∈ ps, q.name = name := by
  induction names with
  | nil => exact fun _ hname => absurd hname List.not_mem_nil
  | cons n rest ih =>
    intro ps h hname
    unfold requiredInherited at h
    split at h
    next hn =>
      -- the head is declared inline and the name is not, so they differ
      have hne : name ≠ n := by
        rintro rfl
        rw [hinline] at hn
        exact absurd hn (by simp)
      exact ih h ((List.mem_cons.1 hname).resolve_left hne)
    next =>
      obtain ⟨found, hfound, h⟩ := Outcome.bind_eq_ok.1 h
      cases found with
      | none => exact absurd h (by simp)
      | some p =>
        obtain ⟨more, hmore, h⟩ := Outcome.bind_eq_ok.1 h
        rw [← Except.ok.inj h]
        rcases List.mem_cons.1 hname with rfl | hname
        · obtain ⟨r, -, b, -, hfind⟩ := firstInSupers_eq_some hfound
          exact ⟨p.withRequired true, List.mem_cons_self, (declared_of_findProperty hfind).1⟩
        · obtain ⟨q, hq, hqname⟩ := ih hmore hname
          exact ⟨q, List.mem_cons_of_mem _ hq, hqname⟩

/-- Where a listed property of an allOf model comes from: it is declared inline; or it is the one that a search
finds, made required; or a super model lists it. -/
theorem listed_cases {a : AllOfModel} {ps : List Property} (h : s.allProperties (.allOf a) = .ok ps)
    {q : Property} (hq : q ∈ ps) :
    q ∈ a.inlineSupers.flatten ∨
    (a.inlineProperty? q.name = none ∧ q.name ∈ a.required ∧ ∃ p, q = p.withRequired true ∧
      s.firstInSupers (s.findProperty q.name s.chainBound [a.name]) a.supers = .ok (some p)) ∨
    (a.inlineProperty? q.name = none ∧ q.name ∉ a.required ∧
      ∃ b qs, Extends s (.allOf a) b ∧ s.allProperties b = .ok qs ∧ q ∈ qs) := by
  obtain ⟨supers, lists, own, hsupers, hlists, hown, rfl⟩ := allProperties_eq_putAll h
  have hfound := Keyed.find?_key_of_mem (Keyed.nodup_putAll_nil _) hq
  rw [Keyed.find?_putAll, List.reverse_append, Keyed.find?_append] at hfound
  unfold ownProperties ownPropertiesIn at hown
  obtain ⟨inherited, hinherited, hown⟩ := Outcome.bind_eq_ok.1 hown
  have hown : inherited ++ a.inlineSupers.flatten = own := Except.ok.inj hown
  cases hlast : Keyed.find? Property.name q.name own.reverse with
  | some p =>
    rw [hlast] at hfound
    have hmem : p ∈ inherited ++ a.inlineSupers.flatten :=
      hown ▸ List.mem_reverse.1 (Keyed.find?_eq_some hlast).1
    rw [Option.some.inj hfound] at hmem
    rcases List.mem_append.1 hmem with hmem | hmem
    · obtain ⟨hname, hinline, hrest⟩ := requiredInherited_found hinherited q hmem
      exact .inr (.inl ⟨hinline, hname, hrest⟩)
    · exact .inl hmem
  | none =>
    -- no own property has the name, so the model neither declares nor requires it, and the last one is inherited
    have hnone : ∀ p ∈ inherited ++ a.inlineSupers.flatten, p.name ≠ q.name := fun p hp =>
      Keyed.find?_eq_none.1 hlast p (List.mem_reverse.2 (hown ▸ hp))
    have hinline : a.inlineProperty? q.name = none := by
      rw [AllOfModel.inlineProperty?_eq_find?]
      exact Keyed.find?_eq_none.2 fun p hp => hnone p (List.mem_append_right _ hp)
    refine .inr (.inr ⟨hinline, fun hname => ?_, ?_⟩)
    · obtain ⟨p, hp, hpname⟩ := requiredInherited_has hinline hinherited hname
      exact hnone p (List.mem_append_left _ hp) hpname
    · rw [hlast] at hfound
      have hlisted : Keyed.find? Property.name q.name lists.flatten.reverse = some q := by
        simpa [Keyed.find?] using hfound
      obtain ⟨qs, hqs, hmem⟩ := List.mem_flatten.1 (List.mem_reverse.1 (Keyed.find?_eq_some hlisted).1)
      obtain ⟨b, hb, hget⟩ := Outcome.exists_left (Outcome.mapM_eq_ok.1 hlists) hqs
      exact ⟨b, qs, (mem_superModels hsupers).1 hb, hget, hmem⟩

/-! ## §3. Names. -/

/-- The names of the properties of an allOf model are those of its super models and its own. -/
theorem named_of_mem {a : AllOfModel} {ps : List Property} (h : s.allProperties (.allOf a) = .ok ps) :
    (∀ p ∈ a.inlineSupers.flatten, ∃ q ∈ ps, q.name = p.name) ∧
    ∀ b, Extends s (.allOf a) b → ∃ qs, s.allProperties b = .ok qs ∧
      ∀ p ∈ qs, ∃ q ∈ ps, q.name = p.name := by
  obtain ⟨supers, lists, own, hsupers, hlists, hown, rfl⟩ := allProperties_eq_putAll h
  -- an entry may be replaced, but its name stays in the list
  have hnamed : ∀ p ∈ lists.flatten ++ own,
      ∃ q ∈ Keyed.putAll Property.name [] (lists.flatten ++ own), q.name = p.name := by
    intro p hp
    have hname : p.name ∈ (Keyed.putAll Property.name [] (lists.flatten ++ own)).map Property.name := by
      rw [Keyed.map_putAll_nil]
      exact List.mem_eraseDups.2 (List.mem_map_of_mem hp)
    exact List.mem_map.1 hname
  refine ⟨fun p hp => hnamed p (List.mem_append_right _ ?_), fun b hb => ?_⟩
  · unfold ownProperties ownPropertiesIn at hown
    obtain ⟨inherited, -, hown⟩ := Outcome.bind_eq_ok.1 hown
    rw [← Except.ok.inj hown]
    exact List.mem_append_right _ hp
  · obtain ⟨qs, hqs, hget⟩ := Outcome.exists_right (Outcome.mapM_eq_ok.1 hlists)
      ((mem_superModels hsupers).2 hb)
    exact ⟨qs, hget, fun p hp => hnamed p (List.mem_append_left _ (List.mem_flatten.2 ⟨qs, hqs, hp⟩))⟩

/-- A model lists a property of a name exactly if it, or a model that it inherits from, declares one. -/
theorem carries_iff_listed {m : Model} {ps : List Property} (h : s.allProperties m = .ok ps)
    {name : String} : s.Carries name m ↔ ∃ q ∈ ps, q.name = name := by
  constructor
  · rintro ⟨c, hc, p, hp, rfl⟩
    -- the induction follows the way up to the model that declares the name; each step puts the name on one more
    -- list
    induction hc using ReflTransGen.head_induction_on generalizing ps with
    | refl =>
      cases c with
      | generic g => exact ⟨p, Except.ok.inj h ▸ hp, rfl⟩
      | allOf a => exact (named_of_mem h).1 p hp
      | enumeration _ | oneOf _ | array _ => exact absurd hp List.not_mem_nil
    | head hext _ ih =>
      cases hext with
      | super hr hget =>
        obtain ⟨qs, hqs, hnamed⟩ := (named_of_mem h).2 _ (.super hr hget)
        obtain ⟨q, hq, hname⟩ := ih hqs
        obtain ⟨r, hr, hrname⟩ := hnamed q hq
        exact ⟨r, hr, hrname.trans hname⟩
  · rintro ⟨q, hq, rfl⟩
    obtain ⟨c, hc, p, hp, heq, -⟩ := (originates_of_allProperties h hq).withRequired
    exact ⟨c, hc, p, hp, by rw [heq]; rfl⟩

/-! ## §4. Where search and list agree. -/

/-- All ways to a property of the name lead to one declaration, or to declarations that are alike: it is
declared inline, and alike in all inline objects; or the model requires it without declaring it inline; or it is
only inherited, unambiguously so from each super model that has it, and found alike in them. -/
inductive Unambiguous (s : Spec) (name : String) : Model → Prop
  | generic {g : GenericModel}
      (h : ∀ p ∈ g.properties, ∀ q ∈ g.properties, p.name = name → q.name = name → p.Alike q) :
      Unambiguous s name (.generic g)
  | inline {a : AllOfModel} (hinline : a.DeclaresInline name)
      (h : ∀ p ∈ a.inlineSupers.flatten, ∀ q ∈ a.inlineSupers.flatten,
        p.name = name → q.name = name → p.Alike q) : Unambiguous s name (.allOf a)
  | required {a : AllOfModel} (hinline : ¬ a.DeclaresInline name) (h : name ∈ a.required) :
      Unambiguous s name (.allOf a)
  | inherited {a : AllOfModel} (hinline : ¬ a.DeclaresInline name)
      (hsupers : ∀ b, Extends s (.allOf a) b → s.Carries name b → Unambiguous s name b)
      (halike : ∀ b c p q, Extends s (.allOf a) b → Extends s (.allOf a) c →
        s.getProperty b name = .ok (some p) → s.getProperty c name = .ok (some q) → p.Alike q) :
      Unambiguous s name (.allOf a)

/-- The property that is found is alike to the one that is listed, where the name is unambiguous. -/
theorem Unambiguous.alike (hs : s.NamesDistinct) {name : String} {m : Model} (h : s.Unambiguous name m) :
    ∀ {ps : List Property} {p q : Property}, s.IsDeclared m → s.allProperties m = .ok ps →
      s.getProperty m name = .ok (some p) → q ∈ ps → q.name = name → p.Alike q := by
  -- one case for each way in which a name is unambiguous; the list has three kinds of entries, and the case
  -- excludes those of the other kinds
  induction h with
  | @generic g hg =>
    intro ps p q _ hps hp hq hname
    obtain ⟨hmem, hpname⟩ := Keyed.find?_eq_some (Except.ok.inj ((findProperty_generic _ _ g).symm.trans hp))
    exact hg p hmem q (Except.ok.inj hps ▸ hq) hpname hname
  | @inline a hinline hall =>
    intro ps p q _ hps hp hq hname
    cases hfirst : a.inlineProperty? name with
    | none => exact absurd hinline (AllOfModel.inlineProperty?_eq_none.1 hfirst)
    | some r =>
      have hr : r = p := Option.some.inj (Except.ok.inj ((getProperty_inline hfirst).symm.trans hp))
      obtain ⟨hmem, hrname⟩ := AllOfModel.inlineProperty?_eq_some hfirst
      rcases listed_cases hps hq with hq | ⟨hnone, -⟩ | ⟨hnone, -⟩
      · exact hall p (hr ▸ hmem) q hq (hr ▸ hrname) hname
      · rw [hname, hfirst] at hnone
        exact absurd hnone (by simp)
      · rw [hname, hfirst] at hnone
        exact absurd hnone (by simp)
  | @required a hinline hrequired =>
    intro ps p q _ hps hp hq hname
    have hfirst := (getProperty_supers (AllOfModel.inlineProperty?_eq_none.2 hinline) hp).1
    rcases listed_cases hps hq with hmem | ⟨-, -, r, rfl, hr⟩ | ⟨-, hnot, -⟩
    · exact absurd ⟨q, hmem, hname⟩ hinline
    · rw [hname, hfirst] at hr
      rw [Option.some.inj (Except.ok.inj hr)]
      exact .withRequired r true
    · exact absurd (hname ▸ hrequired) hnot
  | @inherited a hinline _ halike ih =>
    intro ps p q ha hps hp hq hname
    obtain ⟨hfirst, hown⟩ := getProperty_supers (AllOfModel.inlineProperty?_eq_none.2 hinline) hp
    rcases listed_cases hps hq with hmem | ⟨-, -, r, rfl, hr⟩ | ⟨-, -, c, qs, hc, hqs, hmem⟩
    · exact absurd ⟨q, hmem, hname⟩ hinline
    · rw [hname, hfirst] at hr
      rw [Option.some.inj (Except.ok.inj hr)]
      exact .withRequired r true
    · -- the list takes the last super model that has the name, and the search the first
      obtain ⟨r, hr, b, hget, hb⟩ := firstInSupers_eq_some hown
      have hcarries : s.Carries name c := (carries_iff_listed hqs).2 ⟨q, hmem, hname⟩
      obtain ⟨found, hfound⟩ := exists_getProperty_of_allProperties hs hc.isDeclared hqs name
      cases found with
      | none => exact absurd hcarries (not_carries_of_findProperty hfound)
      | some r' =>
        have hsame : p.Alike r' := halike b c p r' (.super hr hget) hc hb hfound
        exact hsame.trans (ih c hc hcarries hc.isDeclared hqs hfound hmem hname)

/-- **A search finds a property exactly where all properties list one of the name, and the two are alike where
the name is unambiguous.** -/
theorem getProperty_agrees (hs : s.Made) {a : AllOfModel} (ha : s.IsDeclared (.allOf a))
    {ps : List Property} (h : s.allProperties (.allOf a) = .ok ps) (name : String) :
    ∃ found, s.getProperty (.allOf a) name = .ok found ∧
      (found.isSome = true ↔ ∃ q ∈ ps, q.name = name) ∧
      (s.Unambiguous name (.allOf a) →
        ∀ p, found = some p → ∀ q ∈ ps, q.name = name → p.name = name ∧ p.Alike q) := by
  obtain ⟨found, hfound⟩ := exists_getProperty_of_allProperties hs.namesDistinct ha h name
  refine ⟨found, hfound, ?_, ?_⟩
  · rw [← carries_iff_listed h]
    cases found with
    | none => exact ⟨fun h => absurd h (by simp), fun h => absurd h (not_carries_of_findProperty hfound)⟩
    | some p => exact ⟨fun _ => carries_of_findProperty hfound, fun _ => rfl⟩
  · rintro hname p rfl q hq hqname
    exact ⟨(declared_of_findProperty hfound).1, hname.alike hs.namesDistinct ha h hfound hq hqname⟩

end Spec

/-! ## §5. In the diamond and in the fork. -/

/-- What a model without inline declarations of the name extends is found, where there is one way. -/
theorem Spec.Unambiguous.of_super {s : Spec} {name : String} {a : AllOfModel} (p : Property)
    (hinline : a.inlineProperty? name = none)
    (h : ∀ b, Spec.Extends s (.allOf a) b →
      s.Unambiguous name b ∧ s.getProperty b name = .ok (some p)) : s.Unambiguous name (.allOf a) := by
  refine .inherited (AllOfModel.inlineProperty?_eq_none.1 hinline) (fun b hb _ => (h b hb).1) ?_
  intro b c q r hb hc hq hr
  rw [Option.some.inj (Except.ok.inj (hq.symm.trans (h b hb).2)),
    Option.some.inj (Except.ok.inj (hr.symm.trans (h c hc).2))]
  exact .refl p

/-- In the diamond, two ways lead to the one `note` of `Entity`. -/
theorem Diamond.unambiguous_note : Diamond.spec.Unambiguous "note" (.allOf Diamond.node) := by
  have hentity : Diamond.spec.Unambiguous "note" (.generic Diamond.entity) := by
    have hnote : ∀ p ∈ Diamond.entity.properties, p.name = "note" → p = Diamond.plain "note" := by
      simp [Diamond.entity, Diamond.key, Diamond.plain]
    refine .generic fun p hp q hq hpname hqname => ?_
    rw [hnote p hp hpname, hnote q hq hqname]
    exact .refl _
  -- both sides of the diamond extend the one entity and declare nothing of that name
  have hsides : ∀ a : AllOfModel, a.inlineProperty? "note" = none → a.supers = [Diamond.target "Entity"] →
      Diamond.spec.Unambiguous "note" (.allOf a) := by
    intro a hinline hsupers
    refine .of_super (Diamond.plain "note") hinline fun b hb => ?_
    cases hb with
    | super hr hget =>
      rw [hsupers, List.mem_singleton] at hr
      rw [hr] at hget
      rw [← Except.ok.inj (hget : Except.ok (Model.generic Diamond.entity) = .ok b)]
      exact ⟨hentity, rfl⟩
  refine .of_super (Diamond.plain "note") rfl fun b hb => ?_
  cases hb with
  | super hr hget =>
    rcases List.mem_pair.1 hr with rfl | rfl
    · rw [← Except.ok.inj (hget : Except.ok (Model.allOf Diamond.left) = .ok b)]
      exact ⟨hsides _ rfl rfl, rfl⟩
    · rw [← Except.ok.inj (hget : Except.ok (Model.allOf Diamond.right) = .ok b)]
      exact ⟨hsides _ rfl rfl, rfl⟩

/-- At the bottom of the diamond, a search for `note` finds what is listed. -/
theorem getProperty_in_diamond :
    (Diamond.spec.Made ∧ Diamond.spec.IsDeclared (.allOf Diamond.node) ∧
      Diamond.spec.Unambiguous "note" (.allOf Diamond.node)) ∧
    ∃ ps p, Diamond.spec.allProperties (.allOf Diamond.node) = .ok ps ∧
      Diamond.spec.getProperty (.allOf Diamond.node) "note" = .ok (some p) ∧
      (∃ q ∈ ps, q.name = "note") ∧ ∀ q ∈ ps, q.name = "note" → p.Alike q := by
  refine ⟨⟨Diamond.made, Diamond.declares_node, Diamond.unambiguous_note⟩, ?_⟩
  obtain ⟨found, hfound, hlisted, halike⟩ :=
    Spec.getProperty_agrees Diamond.made Diamond.declares_node rfl "note"
  have hnote : some (Diamond.plain "note") = found := Except.ok.inj hfound
  subst hnote
  refine ⟨_, _, rfl, rfl, hlisted.1 rfl, fun q hq hname => ?_⟩
  exact (halike Diamond.unambiguous_note _ rfl q hq hname).2

/-- In the fork, a search for `tag` finds the property of `Cat`, and the list has that of `Dog`. -/
theorem getProperty_differs_in_fork :
    Fork.spec.Made ∧ Fork.spec.IsDeclared (.allOf Fork.pet) ∧
    ∃ ps p q, Fork.spec.allProperties (.allOf Fork.pet) = .ok ps ∧
      Fork.spec.getProperty (.allOf Fork.pet) "tag" = .ok (some p) ∧ q ∈ ps ∧ q.name = "tag" ∧
      p.schema ≠ q.schema := by
  have hlist : Fork.spec.allProperties (.allOf Fork.pet) = .ok [Fork.plain "tag" "integer",
      Fork.plain "name" "string", Fork.plain "age" "number", Fork.plain "note" "string"] := rfl
  have hsearch : Fork.spec.getProperty (.allOf Fork.pet) "tag" =
      .ok (some (Fork.plain "tag" "string")) := rfl
  refine ⟨Fork.made, Fork.declares_pet, _, _, _, hlist, hsearch, List.mem_cons_self, rfl, ?_⟩
  simp [Fork.plain]

end OpenApi
