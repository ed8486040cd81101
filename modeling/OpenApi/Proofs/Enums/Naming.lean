/-
  OpenApi.Proofs.Enums.Naming — the names that the types of enumerations get.

  The type of an enumeration is named after its tags, the model and the innermost property, each in Pascal case. Such
  a name is to tell the enumeration, but nothing compares the enumerations that come to one name, and the tags leave
  out most of a site: the properties around the innermost one, the member of an allOf model, the place of a parameter,
  the type of a content. So enumerations of one name agree where names tell sites: between different models and
  operations, if no name of one lies between the other and its types (`NamesApart`), and within one, if each innermost
  name stands at one site (`NamedOnce`). Main statement: `enums_of_build`; enumerations that differ under one name
  stand in `enums_clash`.
-/
import OpenApi.Proofs.Build.Validation
import OpenApi.Proofs.Enums.Readers

namespace OpenApi

/-! ## §1. Names of sites. -/

/-- The parts of a spec that declare enumerations. -/
inductive Declarer
  | model (name : String)
  | operation (id : String)
  deriving DecidableEq, Repr

/-- What the holder belongs to. -/
def Holder.declarer : Holder → Declarer
  | .member model _ => .model model
  | .parameter id _ => .operation id
  | .content _ id _ _ => .operation id

namespace Site

/-- The tags of an enumeration at the site. -/
def tags (σ : Site) : String × Option String := (σ.holder.tag, σ.path.getLast?)

/-- The tag of the holder in the name of a type. -/
def front (σ : Site) : String := Text.pascalCase σ.holder.tag

/-- Both tags in the name of a type. -/
def stem (σ : Site) : String := σ.front ++ Text.pascalCase (σ.path.getLast?.getD "")

/-- The name that the type of an enumeration with both tags gets. -/
def typeName (σ : Site) : String := σ.stem ++ "Enum"

/-- The name of the other holder goes on from that of the holder, and the name of the type goes on from both. -/
def Between (σ τ : Site) : Prop := σ.front.toList <+: τ.front.toList ∧ τ.front.toList <+: σ.stem.toList

instance (σ τ : Site) : Decidable (σ.Between τ) := inferInstanceAs (Decidable (_ ∧ _))

theorem front_prefix_stem (σ : Site) : σ.front.toList <+: σ.stem.toList := by
  rw [stem, String.toList_append]
  exact List.prefix_append _ _

theorem typeName_inj {σ τ : Site} : σ.typeName = τ.typeName ↔ σ.stem = τ.stem := by
  rw [← String.toList_inj, ← String.toList_inj, typeName, typeName, String.toList_append, String.toList_append]
  exact List.append_left_inj _

/-- Of sites of one stem, the name of one holder lies between the other and its type. -/
theorem between_of_stem_eq {σ τ : Site} (h : σ.stem = τ.stem) : σ.Between τ ∨ τ.Between σ := by
  have hσ := front_prefix_stem σ
  have hτ := front_prefix_stem τ
  rw [← h] at hτ
  rcases List.prefix_or_prefix_of_prefix hσ hτ with hfront | hfront
  · exact .inl ⟨hfront, hτ⟩
  · exact .inr ⟨hfront, h ▸ hσ⟩

end Site

/-- The type of an enumeration with tags is named after them. -/
theorem EmbeddedEnum.typeName_eq {e : EmbeddedEnum} {model property : String} (hmodel : e.declaredModel = some model)
    (hproperty : e.declaredProperty = some property) :
    e.typeName = Text.pascalCase model ++ Text.pascalCase property ++ "Enum" := by
  unfold typeName
  rw [hmodel, hproperty]

/-! ## §2. Enumerations of one name. -/

instance (e : EmbeddedEnum) : Decidable e.IsTagged := inferInstanceAs (Decidable (_ ∧ _))

/-- Enumerations with both tags have the same values of the same type, if their types share a name. -/
def AgreeByName (enums : List (Site × EmbeddedEnum)) : Prop :=
  ∀ x ∈ enums, ∀ y ∈ enums, x.2.IsTagged → y.2.IsTagged → x.2.typeName = y.2.typeName →
    x.2.valueType = y.2.valueType ∧ x.2.values = y.2.values

/-- Enumerations with both tags stand at one site, if the site's names make one stem. -/
def NamedOnce (enums : List (Site × EmbeddedEnum)) : Prop :=
  ∀ x ∈ enums, ∀ y ∈ enums, x.2.IsTagged → y.2.IsTagged → x.1.stem = y.1.stem → x.1 = y.1

/-- The names of what declares enumerations with both tags keep the names of their types apart. -/
def Spec.NamesApart (s : Spec) : Prop :=
  ∀ x ∈ s.enums, ∀ y ∈ s.enums, x.2.IsTagged → y.2.IsTagged → x.1.holder.declarer ≠ y.1.holder.declarer →
    ¬ x.1.Between y.1

instance (enums : List (Site × EmbeddedEnum)) : Decidable (NamedOnce enums) :=
  inferInstanceAs (Decidable (∀ x ∈ enums, _))

instance (s : Spec) : Decidable s.NamesApart := inferInstanceAs (Decidable (∀ x ∈ s.enums, _))

theorem AgreeByName.subset {enums more : List (Site × EmbeddedEnum)} (h : AgreeByName more) (hsub : enums ⊆ more) :
    AgreeByName enums := fun x hx y hy => h x (hsub hx) y (hsub hy)

theorem declarer_of_mem_model {m : Model} {x : Site × EmbeddedEnum} (h : x ∈ m.enums) :
    x.1.holder.declarer = .model m.name := by
  obtain ⟨c, -, h⟩ := List.mem_flatMap.1 h
  obtain ⟨y, -, rfl⟩ := List.mem_map.1 h
  rfl

theorem declarer_of_mem_operation {o : Operation} {x : Site × EmbeddedEnum} (h : x ∈ o.enums) :
    x.1.holder.declarer = .operation o.operationId := by
  rcases List.mem_append.1 h with h | h
  · obtain ⟨p, -, h⟩ := List.mem_flatMap.1 h
    obtain ⟨y, -, rfl⟩ := List.mem_map.1 h
    rfl
  · obtain ⟨b, -, h⟩ := List.mem_flatMap.1 h
    obtain ⟨c, -, h⟩ := List.mem_flatMap.1 h
    obtain ⟨y, -, rfl⟩ := List.mem_map.1 h
    rfl

namespace Spec

variable {s : Spec} {σ τ : Site} {e f : EmbeddedEnum}

theorem model_enums_subset {m : Model} (hm : s.IsDeclared m) : m.enums ⊆ s.enums := fun _ hx =>
  List.mem_append_left _ (List.mem_flatMap.2 ⟨m, hm, hx⟩)

theorem operation_enums_subset {o : Operation} (ho : o ∈ s.operations) : o.enums ⊆ s.enums := fun _ hx =>
  List.mem_append_right _ (List.mem_flatMap.2 ⟨o, ho, hx⟩)

namespace EnumsTagged

theorem typeName_eq (hs : s.EnumsTagged) (h : (σ, e) ∈ s.enums) (he : e.IsTagged) : e.typeName = σ.typeName := by
  obtain ⟨hmodel, hproperty⟩ := hs.tags (declares_of_mem_enums h) he
  obtain ⟨property, hsome⟩ := Option.isSome_iff_exists.1 he.2
  rw [EmbeddedEnum.typeName_eq hmodel hsome, Site.typeName, Site.stem, ← hproperty, hsome, Option.getD_some]
  rfl

theorem stem_eq (hs : s.EnumsTagged) (hσ : (σ, e) ∈ s.enums) (hτ : (τ, f) ∈ s.enums) (he : e.IsTagged)
    (hf : f.IsTagged) (h : e.typeName = f.typeName) : σ.stem = τ.stem := by
  rwa [hs.typeName_eq hσ he, hs.typeName_eq hτ hf, Site.typeName_inj] at h

/-- Where names are kept apart, enumerations whose types share a name have one declarer. -/
theorem declarer_eq (hs : s.EnumsTagged) (hapart : s.NamesApart) (hσ : (σ, e) ∈ s.enums) (hτ : (τ, f) ∈ s.enums)
    (he : e.IsTagged) (hf : f.IsTagged) (h : e.typeName = f.typeName) : σ.holder.declarer = τ.holder.declarer := by
  by_contra hne
  rcases Site.between_of_stem_eq (hs.stem_eq hσ hτ he hf h) with hbetween | hbetween
  · exact hapart _ hσ _ hτ he hf hne hbetween
  · exact hapart _ hτ _ hσ hf he (Ne.symm hne) hbetween

/-- Enumerations of one declarer stand in one model or in one operation. -/
theorem same_declarer (hs : s.EnumsTagged) {x y : Site × EmbeddedEnum} (hx : x ∈ s.enums) (hy : y ∈ s.enums)
    (h : x.1.holder.declarer = y.1.holder.declarer) :
    (∃ m, s.IsDeclared m ∧ x ∈ m.enums ∧ y ∈ m.enums) ∨ ∃ o ∈ s.operations, x ∈ o.enums ∧ y ∈ o.enums := by
  rcases List.mem_append.1 hx with hx | hx
  · obtain ⟨m, hm, hx⟩ := List.mem_flatMap.1 hx
    rw [declarer_of_mem_model hx] at h
    rcases List.mem_append.1 hy with hy | hy
    · obtain ⟨m', hm', hy⟩ := List.mem_flatMap.1 hy
      rw [declarer_of_mem_model hy] at h
      obtain rfl : m = m' := hs.names.eq_of_name_eq hm hm' (Declarer.model.inj h)
      exact .inl ⟨m, hm, hx, hy⟩
    · obtain ⟨o, -, hy⟩ := List.mem_flatMap.1 hy
      rw [declarer_of_mem_operation hy] at h
      exact absurd h nofun
  · obtain ⟨o, ho, hx⟩ := List.mem_flatMap.1 hx
    rw [declarer_of_mem_operation hx] at h
    rcases List.mem_append.1 hy with hy | hy
    · obtain ⟨m, -, hy⟩ := List.mem_flatMap.1 hy
      rw [declarer_of_mem_model hy] at h
      exact absurd h nofun
    · obtain ⟨o', ho', hy⟩ := List.mem_flatMap.1 hy
      rw [declarer_of_mem_operation hy] at h
      obtain rfl : o = o' := hs.operation_eq ho ho' (Declarer.operation.inj h)
      exact .inr ⟨o, ho, hx, hy⟩

/-- **Where names are kept apart, enumerations agree if they agree in each model and in each operation.** -/
theorem agreeByName_iff (hs : s.EnumsTagged) (hapart : s.NamesApart) :
    AgreeByName s.enums ↔
      (∀ m, s.IsDeclared m → AgreeByName m.enums) ∧ ∀ o ∈ s.operations, AgreeByName o.enums := by
  constructor
  · exact fun h => ⟨fun m hm => h.subset (model_enums_subset hm), fun o ho => h.subset (operation_enums_subset ho)⟩
  · rintro ⟨hmodels, hoperations⟩ x hx y hy he hf hname
    rcases hs.same_declarer hx hy (hs.declarer_eq hapart hx hy he hf hname) with ⟨m, hm, hx, hy⟩ | ⟨o, ho, hx, hy⟩
    · exact hmodels m hm x hx y hy he hf hname
    · exact hoperations o ho x hx y hy he hf hname

/-- A site holds one enumeration, so enumerations agree where each stem stands at one site. -/
theorem agreeByName_of_namedOnce (hs : s.EnumsTagged) {enums : List (Site × EmbeddedEnum)} (hsub : enums ⊆ s.enums)
    (h : NamedOnce enums) : AgreeByName enums := by
  rintro ⟨σ, e⟩ hx ⟨τ, f⟩ hy he hf hname
  obtain rfl : σ = τ := h _ hx _ hy he hf (hs.stem_eq (hsub hx) (hsub hy) he hf hname)
  obtain rfl : e = f := hs.eq_of_site (declares_of_mem_enums (hsub hx)) (declares_of_mem_enums (hsub hy)) he hf
  exact ⟨rfl, rfl⟩

end EnumsTagged

end Spec

namespace Build

/-- A spec that was built has its enumerations tagged. -/
theorem enumsTagged_of_build {loader : Loader} {options : Options} {entry : String} {s : Spec}
    (h : (build loader options entry).2 = .ok s) : s.EnumsTagged where
  names := (build_ok h).1.1.namesDistinct
  ids := by
    obtain ⟨file, changes, happly, -⟩ := changes_addRead h
    exact ((Spec.indexAgrees_empty file).applyAll changes happly).distinct
  models m hm := (modelRead_of_build h hm).enumsTagged
  operations o ho := (operationRead_of_build h o ho).enumsTagged

/-- **When enumerations whose types share a name are the same.** In a spec that was built, an enumeration with both tags
has those of its site, which name its type, and a site holds one such enumeration. If the names of models and operations
keep the names of types apart, then enumerations of one name agree just if they do in each model and in each operation;
and they do in those in which each stem stands at one site. -/
theorem enums_of_build {loader : Loader} {options : Options} {entry : String} {s : Spec}
    (h : (build loader options entry).2 = .ok s) :
    (∀ σ e, (σ, e) ∈ s.enums → e.IsTagged →
      (e.declaredModel, e.declaredProperty) = (some σ.tags.1, σ.tags.2) ∧ e.typeName = σ.typeName) ∧
    (∀ σ e f, (σ, e) ∈ s.enums → (σ, f) ∈ s.enums → e.IsTagged → f.IsTagged → e = f) ∧
    (s.NamesApart → (AgreeByName s.enums ↔
      (∀ m, s.IsDeclared m → AgreeByName m.enums) ∧ ∀ o ∈ s.operations, AgreeByName o.enums)) ∧
    (∀ m, s.IsDeclared m → NamedOnce m.enums → AgreeByName m.enums) ∧
    ∀ o ∈ s.operations, NamedOnce o.enums → AgreeByName o.enums := by
  have hs := enumsTagged_of_build h
  refine ⟨fun σ e hσ he => ?_, fun σ e f he hf => ?_, hs.agreeByName_iff, fun m hm => ?_, fun o ho => ?_⟩
  · obtain ⟨hmodel, hproperty⟩ := hs.tags (Spec.declares_of_mem_enums hσ) he
    exact ⟨Prod.ext hmodel hproperty, hs.typeName_eq hσ he⟩
  · exact hs.eq_of_site (Spec.declares_of_mem_enums he) (Spec.declares_of_mem_enums hf)
  · exact hs.agreeByName_of_namedOnce (Spec.model_enums_subset hm)
  · exact hs.agreeByName_of_namedOnce (Spec.operation_enums_subset ho)

end Build

/-! ## §3. Documents with enumerations. -/

/-- At both sites of the spec stand enumerations with types of one name and with other values. -/
def Spec.Clash (s : Spec) (σ τ : Site) : Prop :=
  ∃ x ∈ s.enums, ∃ y ∈ s.enums, x.1 = σ ∧ y.1 = τ ∧ x.2.IsTagged ∧ y.2.IsTagged ∧
    x.2.typeName = y.2.typeName ∧ x.2.values ≠ y.2.values

instance (s : Spec) (σ τ : Site) : Decidable (s.Clash σ τ) := inferInstanceAs (Decidable (∃ x ∈ s.enums, _))

namespace Build

namespace Clashing

open Listing (members)

def choice (values : List String) : Node :=
  members [("type", .string "string"), ("enum", .sequence (values.map .string))]

def object (properties : List (String × Node)) : Node := members [("properties", members properties)]

def arrayOf (items : Node) : Node := members [("type", .string "array"), ("items", items)]

def cats : Node := choice ["house", "wild"]

def dogs : Node := choice ["guard", "herding"]

/-- A parameter that is called `kind`. -/
def parameter (place : String) (schema : Node) : Node :=
  members [("name", .string "kind"), ("in", .string place), ("schema", schema)]

/-- An operation with parameters and with contents of its response. -/
def operation (id : String) (parameters : List Node) (contents : List (String × Node)) : Node :=
  members [("operationId", .string id), ("parameters", .sequence parameters), ("responses", members
    [("200", members [("content", members (contents.map fun c => (c.1, members [("schema", c.2)])))])])]

/-- The document with these schemas, and with these operations at one path. -/
def document (schemas operations : List (String × Node)) : Document where
  source := ⟨"", "api.yaml"⟩
  format := .yaml
  root := members
    [("components", members [("schemas", members schemas)]), ("paths", members [("/pets", members operations)])]

def spelled : Document := document [("Pet", object [("sale-status", cats), ("sale_status", dogs)])] []

def nested : Document :=
  document [("Pet", object [("cat", object [("kind", cats)]), ("dog", object [("kind", dogs)])])] []

def inline : Document :=
  document [("Pet", members [("allOf", .sequence [object [("kind", cats)], object [("kind", dogs)]])])] []

def parameters : Document := document []
  [("get", operation "listPets" [parameter "query" cats, parameter "header" dogs] []),
    ("put", operation "list-pets" [parameter "query" dogs] [])]

def contents : Document := document []
  [("get", operation "listPets" [] [("application/json", arrayOf (object [("kind", cats)])),
      ("text/xml", arrayOf (object [("kind", dogs)]))]),
    ("put", operation "list-pets" [] [("application/json", arrayOf (object [("kind", dogs)]))])]

def kinds : Document :=
  document [("ListPets", object [("kind", cats)])] [("get", operation "listPets" [parameter "query" dogs] [])]

/-- Enumerations at other properties of other models, in a parameter, and in a body that becomes a model. -/
def apart : Document := document
  [("Pet", object [("kind", cats), ("friend", object [("friendKind", dogs)])]), ("Dog", object [("kind", dogs)])]
  [("get", operation "listPets" [parameter "query" cats] [("application/json", object [("kind", dogs)])])]

/-- In the spec that is built from the document, enumerations at both sites clash. -/
def Clashes (d : Document) (σ τ : Site) : Prop :=
  ∃ s, (build (.memory [("api.yaml", .ok d)]) {} "api.yaml").2 = .ok s ∧ s.Clash σ τ

theorem clashes_of_told {d : Document} {σ τ : Site}
    (h : ((build (.memory [("api.yaml", .ok d)]) {} "api.yaml").2.map fun s => decide (s.Clash σ τ)).toOption =
      some true) : Clashes d σ τ := by
  obtain ⟨s, hbuild, hclash⟩ := Outcome.exists_of_map h
  exact ⟨s, hbuild, of_decide_eq_true hclash⟩

end Clashing

open Clashing in
/-- Where each name tells a site, enumerations of one name agree. -/
theorem enums_of_build_of_apart :
    ∃ s, (build (.memory [("api.yaml", .ok apart)]) {} "api.yaml").2 = .ok s ∧ s.NamesApart ∧
      AgreeByName s.enums ∧ s.enums.map (fun x => x.2.typeName) =
        ["PetKindEnum", "PetFriendKindEnum", "DogKindEnum", "ListPets200ResponseKindEnum", "ListPetsKindEnum"] := by
  have htold : ((build (.memory [("api.yaml", .ok apart)]) {} "api.yaml").2.map fun s =>
      (decide (s.NamesApart ∧ (∀ m ∈ s.arena, NamedOnce m.enums) ∧ ∀ o ∈ s.operations, NamedOnce o.enums),
        s.enums.map fun x => x.2.typeName)).toOption =
      some (true, ["PetKindEnum", "PetFriendKindEnum", "DogKindEnum", "ListPets200ResponseKindEnum",
        "ListPetsKindEnum"]) := by decide +kernel
  obtain ⟨s, hbuild, htold⟩ := Outcome.exists_of_map htold
  obtain ⟨hnames, htypes⟩ := Prod.mk.inj htold
  obtain ⟨hapart, hmodels, hoperations⟩ := of_decide_eq_true hnames
  obtain ⟨-, -, hiff, hmodel, hoperation⟩ := enums_of_build hbuild
  refine ⟨s, hbuild, hapart, (hiff hapart).2 ⟨fun m hm => ?_, fun o ho => ?_⟩, htypes⟩
  · exact hmodel m hm (hmodels m hm)
  · exact hoperation o ho (hoperations o ho)

open Clashing in
/-- **Enumerations that differ come to one name.** -/
theorem enums_clash :
    Clashes spelled ⟨.member "Pet" 0, ["sale-status"]⟩ ⟨.member "Pet" 0, ["sale_status"]⟩ ∧
      Clashes nested ⟨.member "Pet" 0, ["cat", "kind"]⟩ ⟨.member "Pet" 0, ["dog", "kind"]⟩ ∧
      Clashes inline ⟨.member "Pet" 0, ["kind"]⟩ ⟨.member "Pet" 1, ["kind"]⟩ ∧
      Clashes parameters ⟨.parameter "listPets" .query, ["kind"]⟩ ⟨.parameter "listPets" .header, ["kind"]⟩ ∧
      Clashes parameters ⟨.parameter "listPets" .query, ["kind"]⟩ ⟨.parameter "list-pets" .query, ["kind"]⟩ ∧
      Clashes contents ⟨.content "ListPets200Response" "listPets" 1 "application/json", ["kind"]⟩
        ⟨.content "ListPets200Response" "listPets" 1 "text/xml", ["kind"]⟩ ∧
      Clashes contents ⟨.content "ListPets200Response" "listPets" 1 "application/json", ["kind"]⟩
        ⟨.content "ListPets200Response" "list-pets" 1 "application/json", ["kind"]⟩ ∧
      Clashes kinds ⟨.member "ListPets" 0, ["kind"]⟩ ⟨.parameter "listPets" .query, ["kind"]⟩ :=
  ⟨clashes_of_told (by decide +kernel), clashes_of_told (by decide +kernel), clashes_of_told (by decide +kernel),
    clashes_of_told (by decide +kernel), clashes_of_told (by decide +kernel), clashes_of_told (by decide +kernel),
    clashes_of_told (by decide +kernel), clashes_of_told (by decide +kernel)⟩

end Build

end OpenApi
