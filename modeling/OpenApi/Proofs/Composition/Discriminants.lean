/-
  OpenApi.Proofs.Composition.Discriminants — the values under which the members of a union stand.

  Without a mapping, the members of a union are put into a table one after the other, each under its own
  discriminant (`StandsUnder`). Nothing checks whether a discriminant is taken: the later member then stands in
  the place of the earlier one. So each discriminant stands in the table once, with the last of its members
  (`mappedModels_inferred`), and no member is lost just if members of different models stand under different
  discriminants (`ToldApart`).
-/
import OpenApi.Proofs.Keyed
import OpenApi.Proofs.Spec.Numbers
import OpenApi.Proofs.Spec.Stored
import OpenApi.Spec.Discriminator

namespace OpenApi

/-! ## §1. Tables of pairs. -/

namespace Keyed

variable {β : Type} {entries more : List (String × β)} {e : String × β}

/-- Putting an entry that is there changes nothing, where all entries with its key are equal to it. -/
theorem put_of_mem (hmem : e.1 ∈ entries.map Prod.fst) (h : ∀ x ∈ entries, x.1 = e.1 → x = e) :
    put Prod.fst e entries = entries := by
  induction entries with
  | nil => exact absurd hmem List.not_mem_nil
  | cons x rest ih =>
    unfold put
    by_cases hx : x.1 = e.1
    · rw [if_pos hx, h x List.mem_cons_self hx]
    · have hrest : e.1 ∈ rest.map Prod.fst := (List.mem_cons.1 hmem).resolve_left (Ne.symm hx)
      rw [if_neg hx, ih hrest fun y hy => h y (List.mem_cons_of_mem _ hy)]

/-- An entry is found among entries with distinct keys just if it is one of them. -/
theorem mem_iff_find? (h : (entries.map Prod.fst).Nodup) : e ∈ entries ↔ find? Prod.fst e.1 entries = some e :=
  ⟨fun he => find?_key_of_mem h he, fun he => (find?_eq_some he).1⟩

/-- What stands in a table is the last entry that was put under its key. -/
theorem mem_putAll_nil :
    e ∈ putAll Prod.fst [] more ↔ ∃ before after, more = before ++ e :: after ∧ e.1 ∉ after.map Prod.fst := by
  -- a later entry replaces an earlier one of its key, so what stays is what a search from the end meets first
  have hlast : e ∈ putAll Prod.fst [] more ↔ find? Prod.fst e.1 more.reverse = some e := by
    rw [mem_iff_find? (nodup_putAll_nil more), find?_putAll]
    simp [find?]
  rw [hlast]
  unfold find?
  rw [List.find?_eq_some_iff_append]
  constructor
  · intro h
    obtain ⟨-, after, before, heq, hnew⟩ := h
    refine ⟨before.reverse, after.reverse, ?_, ?_⟩
    · rw [← List.reverse_reverse more, heq]
      simp
    · intro hmem
      obtain ⟨x, hx, hkey⟩ := List.mem_map.1 hmem
      simpa [hkey] using hnew x (List.mem_reverse.1 hx)
  · intro h
    obtain ⟨before, after, rfl, hnew⟩ := h
    refine ⟨by simp, after.reverse, before.reverse, by simp, ?_⟩
    intro x hx
    have hkey : x.1 ≠ e.1 := fun heq => hnew (heq ▸ List.mem_map_of_mem (List.mem_reverse.1 hx))
    simpa using hkey

/-- Where entries with one key are equal, each of them is put once, in the order of the entries. -/
theorem putAll_nil_sublist (h : ∀ x ∈ more, ∀ y ∈ more, x.1 = y.1 → x = y) :
    (putAll Prod.fst [] more).Sublist more := by
  induction more using List.reverseRecOn with
  | nil => exact List.Sublist.slnil
  | append_singleton more x ih =>
    have hmore : (putAll Prod.fst [] more).Sublist more :=
      ih fun y hy z hz => h y (List.mem_append_left _ hy) z (List.mem_append_left _ hz)
    have hlast : putAll Prod.fst [] (more ++ [x]) = put Prod.fst x (putAll Prod.fst [] more) :=
      putAll_append more [x]
    rw [hlast]
    by_cases hmem : x.1 ∈ (putAll Prod.fst [] more).map Prod.fst
    · rw [put_of_mem hmem fun y hy heq =>
        h y (List.mem_append_left _ (hmore.subset hy)) x (by simp) heq]
      exact hmore.trans (List.sublist_append_left more [x])
    · rw [put_of_not_mem hmem]
      exact hmore.append (List.Sublist.refl [x])

end Keyed

namespace Spec

variable {s : Spec} {property : String}

/-! ## §2. Discriminants. -/

/-- The reference of a member leads to the model, which stands under the value. -/
inductive StandsUnder (s : Spec) (property : String) (r : SchemaRef) : String → Model → Prop
  /-- A union stands under the name of its class. -/
  | union {m : OneOfModel} (hget : s.getModel r = .ok (.oneOf m)) :
      StandsUnder s property r r.className (.oneOf m)
  /-- Another model stands under the one value that its discriminating property takes. -/
  | constant {m : Model} {p : Property} {value : String} (hget : s.getModel r = .ok m)
      (hkind : m.kind ≠ .oneOf) (hp : s.getProperty m property = .ok (some p))
      (hschema : p.schema = .constant value) : StandsUnder s property r value m
  /-- A model whose property takes more than one value stands under the name of its class. -/
  | className {m : Model} {p : Property} (hget : s.getModel r = .ok m) (hkind : m.kind ≠ .oneOf)
      (hp : s.getProperty m property = .ok (some p)) (hschema : ∀ value, p.schema ≠ .constant value) :
      StandsUnder s property r r.className m

theorem StandsUnder.getModel {r : SchemaRef} {value : String} {m : Model}
    (h : s.StandsUnder property r value m) : s.getModel r = .ok m := by
  cases h with
  | union hget | constant hget | className hget => exact hget

theorem property_eq_ok {m : Model} {p : Property} :
    s.property m property = .ok p ↔ s.getProperty m property = .ok (some p) := by
  unfold Spec.property
  rw [Outcome.bind_eq_ok]
  constructor
  · rintro ⟨found, hfound, h⟩
    cases found with
    | none => exact absurd h nofun
    | some q => rw [hfound, Except.ok.inj h]
  · intro h
    exact ⟨some p, h, rfl⟩

/-- The value for a member is its discriminant. -/
theorem standsUnder_of_memberValue {r : SchemaRef} {e : String × Model}
    (h : s.memberValue property r = .ok e) : s.StandsUnder property r e.1 e.2 := by
  unfold memberValue at h
  obtain ⟨m, hget, h⟩ := Outcome.bind_eq_ok.1 h
  cases m with
  | oneOf u =>
    rw [← Except.ok.inj h]
    exact .union hget
  -- the members other than unions are read alike
  | generic _ | enumeration _ | allOf _ | array _ =>
    obtain ⟨p, hp, h⟩ := Outcome.bind_eq_ok.1 h
    rw [property_eq_ok] at hp
    split at h
    next value hschema =>
      rw [← Except.ok.inj h]
      exact .constant hget (by simp [Model.kind]) hp hschema
    next hschema =>
      rw [← Except.ok.inj h]
      exact .className hget (by simp [Model.kind]) hp hschema

/-! ## §3. One model, one discriminant. -/

/-- References that lead to one model have one text. -/
theorem Made.reference_eq (hs : s.Made) {r r' : SchemaRef} {m : Model} (h : s.getModel r = .ok m)
    (h' : s.getModel r' = .ok m) : r.reference = r'.reference := by
  obtain ⟨n, hn, hm⟩ := getModel_eq_ok.1 h
  obtain ⟨k, hk, hm'⟩ := getModel_eq_ok.1 h'
  obtain rfl : n = k := hs.namesDistinct.number_eq hm hm' rfl
  obtain ⟨d, hd, hplace⟩ := hs.inStep.placed _ n (modelNumber_eq_ok.1 hn)
  obtain ⟨d', hd', hplace'⟩ := hs.inStep.placed _ n (modelNumber_eq_ok.1 hk)
  rw [hd] at hd'
  rw [← hplace, ← hplace', Option.some.inj hd']

theorem className_congr {r r' : SchemaRef} (h : r.reference = r'.reference) : r.className = r'.className := by
  unfold SchemaRef.className
  rw [h]

/-- Members that are one model stand under one value. -/
theorem StandsUnder.unique (hs : s.Made) {r r' : SchemaRef} {value value' : String} {m : Model}
    (h : s.StandsUnder property r value m) (h' : s.StandsUnder property r' value' m) : value = value' := by
  have hname : r.className = r'.className := className_congr (hs.reference_eq h.getModel h'.getModel)
  -- both stand for one model, so the same rule applies to both; the mixed cases exclude each other
  cases h with
  | union _ =>
    cases h' with
    | union _ => exact hname
    | constant _ hkind | className _ hkind => exact absurd rfl hkind
  | @constant _ p _ _ hkind hp hschema =>
    cases h' with
    | union _ => exact absurd rfl hkind
    | @constant _ q _ _ _ hq hschema' =>
      have hpq : p = q := Option.some.inj (Except.ok.inj (hp.symm.trans hq))
      rw [← hpq, hschema] at hschema'
      exact Schema.constant.inj hschema'
    | @className _ q _ _ hq hschema' =>
      have hpq : p = q := Option.some.inj (Except.ok.inj (hp.symm.trans hq))
      exact absurd (hpq ▸ hschema) (hschema' value)
  | @className _ p _ hkind hp hschema =>
    cases h' with
    | union _ => exact absurd rfl hkind
    | @constant _ q _ _ _ hq hschema' =>
      have hpq : p = q := Option.some.inj (Except.ok.inj (hp.symm.trans hq))
      exact absurd (hpq ▸ hschema') (hschema value')
    | className _ _ _ _ => exact hname

/-! ## §4. The table of a union. -/

/-- Members under one discriminant are one model. -/
def ToldApart (members : List (String × Model)) : Prop :=
  ∀ e ∈ members, ∀ f ∈ members, e.1 = f.1 → e.2 = f.2

theorem mappedModels_eq_ok {m : OneOfModel} (hinferred : m.discriminator.mapping = [])
    {table : List (String × Model)} (h : s.mappedModels m = .ok table) :
    ∃ property members, m.discriminator.propertyName = some property ∧
      List.Forall₂ (fun r e => s.StandsUnder property r e.1 e.2) m.members members ∧
      table = Keyed.putAll Prod.fst [] members := by
  unfold mappedModels at h
  rw [hinferred, List.isEmpty_nil, if_pos rfl] at h
  cases hproperty : m.discriminator.propertyName with
  | none =>
    rw [hproperty] at h
    exact absurd h nofun
  | some property =>
    rw [hproperty] at h
    obtain ⟨members, hmembers, htable⟩ := Outcome.map_eq_ok.1 h
    refine ⟨property, members, rfl, ?_, htable.symm⟩
    exact (Outcome.mapM_eq_ok.1 hmembers).imp fun r e he => standsUnder_of_memberValue he

/-- **The table of a union without a mapping has each discriminant once, in the order of the members, with the
last member that stands under it. No member is lost just if members under one discriminant are one model, and
then the table has one entry for each model.** -/
theorem mappedModels_inferred (hs : s.Made) {m : OneOfModel} (hinferred : m.discriminator.mapping = [])
    {table : List (String × Model)} (h : s.mappedModels m = .ok table) :
    ∃ property members, m.discriminator.propertyName = some property ∧
      List.Forall₂ (fun r e => s.StandsUnder property r e.1 e.2) m.members members ∧
      table.map Prod.fst = (members.map Prod.fst).eraseDups ∧
      (∀ e, e ∈ table ↔ ∃ before after, members = before ++ e :: after ∧ e.1 ∉ after.map Prod.fst) ∧
      (members ⊆ table ↔ ToldApart members) ∧
      (ToldApart members → table.Sublist members ∧ (table.map Prod.snd).Nodup) := by
  obtain ⟨property, members, hproperty, hmembers, rfl⟩ := mappedModels_eq_ok hinferred h
  have hkeys : ((Keyed.putAll Prod.fst [] members).map Prod.fst).Nodup := Keyed.nodup_putAll_nil members
  refine ⟨property, members, hproperty, hmembers, Keyed.map_putAll_nil _, fun _ => Keyed.mem_putAll_nil,
    ⟨?_, ?_⟩, ?_⟩
  · intro hall e he f hf heq
    rw [List.inj_on_of_nodup_map hkeys (hall he) (hall hf) heq]
  · intro happart e he
    have hkey : e.1 ∈ (Keyed.putAll Prod.fst [] members).map Prod.fst := by
      rw [Keyed.map_putAll_nil, List.mem_eraseDups]
      exact List.mem_map_of_mem he
    obtain ⟨f, hf, heq⟩ := List.mem_map.1 hkey
    have hfm : f ∈ members := (Keyed.mem_putAll hf).resolve_left List.not_mem_nil
    rw [Prod.ext heq.symm (happart e he f hfm heq.symm)]
    exact hf
  · intro happart
    have hsub : (Keyed.putAll Prod.fst [] members).Sublist members :=
      Keyed.putAll_nil_sublist fun e he f hf heq => Prod.ext heq (happart e he f hf heq)
    refine ⟨hsub, (List.Nodup.of_map _ hkeys).map_on ?_⟩
    intro e he f hf heq
    -- entries with one model are members that stand under one value
    obtain ⟨r, -, hr⟩ := Outcome.exists_left hmembers (hsub.subset he)
    obtain ⟨r', -, hr'⟩ := Outcome.exists_left hmembers (hsub.subset hf)
    exact Prod.ext (hr.unique hs (heq ▸ hr')) heq

end Spec

/-! ## §5. Animals. -/

namespace Animals

/-- The reference to a model of the animals. -/
def target (name : String) : SchemaRef := .toModel "api.yaml" name

/-- A model with a property `kind`. -/
def animal (name : String) (kind : Schema) : GenericModel :=
  ⟨name, none, [⟨"kind", none, none, true, false, false, false, some name, kind⟩]⟩

def cat : GenericModel := animal "Cat" (.constant "cat")

/-- A dog, and the constant that it has for its kind. -/
def dog (kind : String) : GenericModel := animal "Dog" (.constant kind)

def fish : GenericModel := animal "Fish" (.primitive ⟨"string", none⟩)

/-- A pet is a cat, a dog or a fish, told apart by `kind`. -/
def pet : OneOfModel :=
  ⟨"Pet", none, [target "Cat", target "Dog", target "Fish", target "Cat"], ⟨some "kind", []⟩⟩

/-- The animals, where dogs have the kind `kind`. -/
def spec (kind : String) : Spec :=
  .ofModels "api.yaml" ([.generic cat, .generic (dog kind), .generic fish, .oneOf pet].map (Declared.mk "api.yaml"))

theorem made (kind : String) : (spec kind).Made := Spec.made_ofModels "api.yaml" _

end Animals

/-- Cats and dogs of kinds of their own are told apart. Fish stand under the name of their class, and cats stand
in the table once though they are listed twice. -/
theorem Animals.mappedModels_of_own_kinds :
    (Animals.spec "dog").Made ∧ Animals.pet.discriminator.mapping = [] ∧
    ∃ table, (Animals.spec "dog").mappedModels Animals.pet = .ok table ∧
      table = [("cat", .generic Animals.cat), ("dog", .generic (Animals.dog "dog")),
        ("Fish", .generic Animals.fish)] ∧
      ∃ property members, Animals.pet.discriminator.propertyName = some property ∧
        List.Forall₂ (fun r e => (Animals.spec "dog").StandsUnder property r e.1 e.2) Animals.pet.members
          members ∧
        table.map Prod.fst = (members.map Prod.fst).eraseDups ∧
        (∀ e, e ∈ table ↔
          ∃ before after, members = before ++ e :: after ∧ e.1 ∉ after.map Prod.fst) ∧
        (members ⊆ table ↔ Spec.ToldApart members) ∧
        (Spec.ToldApart members → table.Sublist members ∧ (table.map Prod.snd).Nodup) := by
  have htable : (Animals.spec "dog").mappedModels Animals.pet = .ok [("cat", .generic Animals.cat),
      ("dog", .generic (Animals.dog "dog")), ("Fish", .generic Animals.fish)] := rfl
  exact ⟨Animals.made "dog", rfl, _, htable, rfl, Spec.mappedModels_inferred (Animals.made "dog") rfl htable⟩

/-- Dogs of the kind of cats are lost: both are members and stand under one value, and the call succeeds with a
table that has no dogs. -/
theorem Animals.mappedModels_of_one_kind :
    (Animals.spec "cat").Made ∧ (Animals.spec "cat").IsDeclared (.oneOf Animals.pet) ∧
    Animals.pet.discriminator.mapping = [] ∧ Animals.target "Dog" ∈ Animals.pet.members ∧
    (Animals.spec "cat").StandsUnder "kind" (Animals.target "Cat") "cat" (.generic Animals.cat) ∧
    (Animals.spec "cat").StandsUnder "kind" (Animals.target "Dog") "cat" (.generic (Animals.dog "cat")) ∧
    ∃ table, (Animals.spec "cat").mappedModels Animals.pet = .ok table ∧
      ∀ e ∈ table, e.2 ≠ .generic (Animals.dog "cat") := by
  have htable : (Animals.spec "cat").mappedModels Animals.pet =
      .ok [("cat", .generic Animals.cat), ("Fish", .generic Animals.fish)] := rfl
  have hdeclared : (Animals.spec "cat").IsDeclared (.oneOf Animals.pet) :=
    List.mem_of_getElem? (rfl : (Animals.spec "cat").arena[3]? = some (.oneOf Animals.pet))
  refine ⟨Animals.made "cat", hdeclared, rfl, by simp [Animals.pet], ?_, ?_, _, htable, ?_⟩
  · exact .constant rfl (by simp [Model.kind]) rfl rfl
  · exact .constant rfl (by simp [Model.kind]) rfl rfl
  · intro e he
    simp only [List.mem_cons, List.not_mem_nil, or_false] at he
    obtain rfl | rfl := he
    · simp [Animals.cat, Animals.dog, Animals.animal]
    · simp [Animals.fish, Animals.dog, Animals.animal]

end OpenApi
