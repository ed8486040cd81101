/-
  OpenApi.Proofs.Required.Listed — which properties of an allOf are required in the end.

  A name that the schema or a member declared in place lists as required is a property of the model. It is required
  if the schema lists it, or a member that does not declare it; among members that declare it the last one decides,
  whatever the others list (`endsRequired`). Main statement: `required_of_build`.
-/
import OpenApi.Proofs.Build.Naming
import OpenApi.Proofs.Build.Survey
import OpenApi.Proofs.Composition.Search
import OpenApi.Proofs.Required.Members

namespace OpenApi

/-! ## §1. What an allOf lists. -/

namespace Node

/-- Does the schema require the name? -/
def requires (name : String) (n : Node) : Bool := n.requiredTexts.contains name

/-- Does the schema declare a property of the name? -/
def declares (name : String) (n : Node) : Bool := n.declaredNames.contains name

/-- The members of an allOf that are declared in place. -/
def inlineMembers (n : Node) : List Node := (n.itemsAt "allOf").filter isInline

/-- Does the schema or a member declared in place require the name? -/
def listsRequired (name : String) (n : Node) : Bool := n.requires name || n.inlineMembers.any (requires name)

/-- The last member declared in place that declares the name. -/
def lastDeclaring? (name : String) (n : Node) : Option Node := n.inlineMembers.reverse.find? (declares name)

/-- Is the name required in the end? The schema requires it, or a member that does not declare it, or the last member
that declares it. -/
def endsRequired (name : String) (n : Node) : Bool :=
  n.requires name || (n.inlineMembers.any fun c => c.requires name && !c.declares name) ||
    (n.lastDeclaring? name).any (requires name)

variable {n : Node} {name : String}

theorem requires_iff : n.requires name = true ↔ name ∈ n.requiredTexts := List.contains_iff_mem

theorem declares_iff : n.declares name = true ↔ name ∈ n.declaredNames := List.contains_iff_mem

/-- A member that declares a name has properties. -/
theorem has_of_declares (h : n.declares name = true) : n.has "properties" = true := by
  rw [declares_iff] at h
  by_contra hnone
  rw [declaredNames_of_not_has (Bool.eq_false_iff.2 hnone)] at h
  exact absurd h List.not_mem_nil

/-- A schema is an allOf if it has the key, and none that comes first. -/
theorem kindKey?_eq_allOf : n.kindKey? = some "allOf" ↔
    n.has "properties" = false ∧ n.has "enum" = false ∧ n.has "allOf" = true := by
  unfold kindKey?
  cases hproperties : n.has "properties" with
  | true => simp [hproperties]
  | false =>
    cases henum : n.has "enum" with
    | true => simp [hproperties, henum]
    | false =>
      cases hallOf : n.has "allOf" with
      | true => simp [hproperties, henum, hallOf]
      | false =>
        cases honeOf : n.has "oneOf" with
        | true => simp [hproperties, henum, hallOf, honeOf]
        | false => simp [hproperties, henum, hallOf, honeOf]

/-- The last member that declares a name is the last of those with properties that do. -/
theorem lastDeclaring?_eq : n.lastDeclaring? name =
    ((n.itemsAt "allOf").filter fun c => c.isInline && c.has "properties").reverse.find? (declares name) := by
  unfold lastDeclaring? inlineMembers
  rw [← List.filter_reverse, ← List.filter_reverse, List.find?_filter, List.find?_filter]
  congr 1
  funext c
  by_cases hdeclares : c.declares name = true
  · simp [has_of_declares hdeclares]
  · simp [hdeclares]

end Node

/-! ## §2. The last object that declares a name. -/

/-- Among objects that are told by nodes, the last property of a name is that of the last node that declares it. -/
theorem find?_of_gives {besides : List String} {nodes : List Node} {objects : List (List Property)}
    (h : List.Forall₂ (Node.Gives besides) nodes objects) (name : String) :
    Option.Rel (fun c p => p.name = name ∧ (p.required = true ↔ c.requires name = true ∨ name ∈ besides))
      (nodes.reverse.find? (Node.declares name)) (Keyed.find? Property.name name objects.flatten.reverse) := by
  induction h with
  | nil => exact .none
  | @cons c object nodes objects hfirst _ ih =>
    rw [List.flatten_cons, List.reverse_append, List.reverse_cons, List.find?_append, Keyed.find?_append]
    generalize nodes.reverse.find? (Node.declares name) = last at ih
    generalize Keyed.find? Property.name name objects.flatten.reverse = found at ih
    cases ih with
    | some hp => exact .some hp
    | none =>
      -- no later object declares the name, so the first one decides
      cases hfind : Keyed.find? Property.name name object.reverse with
      | some p =>
        obtain ⟨hmem, rfl⟩ := Keyed.find?_eq_some hfind
        rw [List.mem_reverse] at hmem
        have hdeclares : c.declares p.name = true :=
          Node.declares_iff.2 ((hfirst.names p.name).1 ⟨p, hmem, rfl⟩)
        simp only [List.find?_cons, hdeclares, Option.none_or]
        refine .some ⟨rfl, ?_⟩
        rw [hfirst.required p hmem, Node.requires_iff]
      | none =>
        have hdeclares : c.declares name = false := by
          rw [Bool.eq_false_iff, ne_eq, Node.declares_iff, ← hfirst.names]
          intro hdeclared
          obtain ⟨p, hp, hname⟩ := hdeclared
          exact Keyed.find?_eq_none.1 hfind p (List.mem_reverse.2 hp) hname
        simp only [List.find?_cons, List.find?_nil, hdeclares, Option.none_or]
        exact .none

/-! ## §3. All properties. -/

namespace Spec

variable {s : Spec} {a : AllOfModel} {ps : List Property} {name : String}

/-- The properties of an allOf model have distinct names. -/
theorem names_nodup (h : s.allProperties (.allOf a) = .ok ps) : (ps.map Property.name).Nodup := by
  obtain ⟨supers, lists, own, -, -, -, rfl⟩ := allProperties_eq_putAll h
  exact Keyed.nodup_putAll_nil _

/-- The last inline property of a name is the one that is listed. -/
theorem find?_of_inline (h : s.allProperties (.allOf a) = .ok ps) {p : Property}
    (hp : Keyed.find? Property.name name a.inlineSupers.flatten.reverse = some p) :
    Keyed.find? Property.name name ps = some p := by
  obtain ⟨supers, lists, own, -, -, hown, rfl⟩ := allProperties_eq_putAll h
  obtain ⟨inherited, -, hown⟩ := Outcome.bind_eq_ok.1 hown
  have hown : inherited ++ a.inlineSupers.flatten = own := Except.ok.inj hown
  rw [Keyed.find?_putAll, ← hown, List.reverse_append, List.reverse_append, Keyed.find?_append,
    Keyed.find?_append, hp]
  rfl

/-- A name that the model requires and declares in no inline object is listed, and required. -/
theorem exists_of_inherited (h : s.allProperties (.allOf a) = .ok ps)
    (hinline : Keyed.find? Property.name name a.inlineSupers.flatten.reverse = none) (hname : name ∈ a.required) :
    ∃ p, Keyed.find? Property.name name ps = some p ∧ p.required = true := by
  obtain ⟨supers, lists, own, -, -, hown, rfl⟩ := allProperties_eq_putAll h
  obtain ⟨inherited, hinherited, hown⟩ := Outcome.bind_eq_ok.1 hown
  have hown : inherited ++ a.inlineSupers.flatten = own := Except.ok.inj hown
  have hundeclared : a.inlineProperty? name = none := by
    rw [AllOfModel.inlineProperty?_eq_find?, Keyed.find?_eq_none]
    exact fun p hp => Keyed.find?_eq_none.1 hinline p (List.mem_reverse.2 hp)
  obtain ⟨q, hq, hqname⟩ := requiredInherited_has hundeclared hinherited hname
  cases hfind : Keyed.find? Property.name name inherited.reverse with
  | none => exact absurd hqname (Keyed.find?_eq_none.1 hfind q (List.mem_reverse.2 hq))
  | some p =>
    have hlast : Keyed.find? Property.name name (Keyed.putAll Property.name [] (lists.flatten ++ own)) = some p := by
      rw [Keyed.find?_putAll, ← hown, List.reverse_append, List.reverse_append, Keyed.find?_append,
        Keyed.find?_append, hinline, hfind]
      rfl
    obtain ⟨-, -, r, rfl, -⟩ := requiredInherited_found hinherited p (List.mem_reverse.1 (Keyed.find?_eq_some hfind).1)
    exact ⟨r.withRequired true, hlast, rfl⟩

end Spec

/-! ## §4. Listed names. -/

namespace AllOfModel.ToldBy

variable {n : Node} {a : AllOfModel}

/-- The names that the model requires. -/
theorem mem_required (h : a.ToldBy n) (name : String) : name ∈ a.required ↔
    n.requires name = true ∨ (n.inlineMembers.any fun c => c.requires name && !c.declares name) = true := by
  rw [h.required, Node.requires_iff, List.any_eq_true]
  simp only [Node.inlineMembers, List.mem_filter, Bool.and_eq_true, Bool.not_eq_true', Node.requires_iff,
    Bool.eq_false_iff, ne_eq, Node.declares_iff, and_assoc]

/-- **A name that is listed as required is a property of the model, and required just if it ends so.** -/
theorem exists_listed (h : a.ToldBy n) {s : Spec} {ps : List Property} (hps : s.allProperties (.allOf a) = .ok ps)
    {name : String} (hlists : n.listsRequired name = true) :
    ∃ p, Keyed.find? Property.name name ps = some p ∧ p.required = n.endsRequired name := by
  have hlast := find?_of_gives h.objects name
  rw [← Node.lastDeclaring?_eq] at hlast
  unfold Node.endsRequired
  generalize hdeclaring : n.lastDeclaring? name = declaring at hlast
  generalize hinline : Keyed.find? Property.name name a.inlineSupers.flatten.reverse = inline at hlast
  cases hlast with
  | @some c p hp =>
    refine ⟨p, Spec.find?_of_inline hps hinline, ?_⟩
    rw [Bool.eq_iff_iff, hp.2, h.mem_required, Bool.or_eq_true, Bool.or_eq_true, Option.any_some]
    exact or_comm
  | none =>
    -- no member declares the name, so the member that lists it does not, and the model inherits and requires it
    have hname : name ∈ a.required := by
      rw [h.mem_required]
      unfold Node.listsRequired at hlists
      rw [Bool.or_eq_true] at hlists
      refine hlists.imp_right fun hmember => ?_
      rw [List.any_eq_true] at hmember ⊢
      obtain ⟨c, hc, hrequires⟩ := hmember
      have hundeclared : ¬c.declares name = true :=
        List.find?_eq_none.1 hdeclaring c (List.mem_reverse.2 hc)
      exact ⟨c, hc, by simp [hrequires, hundeclared]⟩
    obtain ⟨p, hp, hrequired⟩ := Spec.exists_of_inherited hps hinline hname
    refine ⟨p, hp, ?_⟩
    have hends := (h.mem_required name).1 hname
    rw [hrequired, Option.any_none, Bool.or_false, eq_comm, Bool.or_eq_true]
    exact hends

end AllOfModel.ToldBy

namespace Build

open Building (Leaves)

variable {loader : Loader} {options : Options} {entry : String} {s : Spec}

/-! ## §5. Builds. -/

/-- A schema whose kind is told by `allOf` is read as an allOf model. -/
theorem readModel_allOf {name : String} {m : Mapping} (hkind : m.node.kindKey? = some "allOf") :
    (readModel name m).Leaves fun model _ => ∃ a, model = .allOf a ∧ a.name = name ∧ a.ToldBy m.node := by
  obtain ⟨hproperties, henum, hallOf⟩ := Node.kindKey?_eq_allOf.1 hkind
  have hcontains : ∀ key, m.containsKey key = m.node.has key := fun _ => rfl
  unfold readModel
  rw [hcontains, hcontains, hcontains, hproperties, henum, hallOf]
  refine .reading fun _ => .reading fun description => ?_
  rw [if_neg Bool.false_ne_true, if_neg Bool.false_ne_true, if_pos rfl]
  refine .map ?_
  intro session a after hrun
  obtain ⟨hgrows, htold⟩ := readAllOf_leaves name description.optional m session a after hrun
  exact ⟨hgrows, a, rfl, readAllOf_name name description.optional m session a after hrun, htold⟩

/-- **Every name that an allOf schema or a member declared in place of it lists as required is a property of the
model, and it is required just if it ends so:** the schema lists it, or a member that does not declare it, or the last
member that declares it. -/
theorem required_of_build (h : (build loader options entry).2 = .ok s) :
    ∃ v, visited loader options entry = .ok v ∧
      ∀ e ∈ v.documents, ∀ schema ∈ e.1.root.declaredSchemas, schema.2.kindKey? = some "allOf" →
        ∃ a, s.IsDeclared (.allOf a) ∧ a.name = schema.1 ∧
          ∀ ps, s.allProperties (.allOf a) = .ok ps → ∀ name, schema.2.listsRequired name = true →
            ∃ p ∈ ps, p.name = name ∧ p.required = schema.2.endsRequired name ∧
              ∀ q ∈ ps, q.name = name → q = p := by
  obtain ⟨v, after, hread, rfl, -⟩ := build_eq_ok.1 h
  refine ⟨v, visited_eq_ok.2 ⟨after, hread⟩, fun e he schema hschema hkind => ?_⟩
  obtain ⟨m, model, -, hnode, ⟨session, read, hrun, -⟩, hmodel⟩ := (survey_of_readAll hread).1 e he schema hschema
  rw [← hnode] at hkind
  obtain ⟨a, rfl, hname, htold⟩ := (readModel_allOf hkind session model read hrun).2
  have hmade : after.spec.Made := (recorded_of_readAll hread).1
  refine ⟨a, Spec.mem_arena_of_mem_models (hmade.inStep.mem_models hmodel), hname, fun ps hps name hlists => ?_⟩
  rw [hnode] at htold
  obtain ⟨p, hp, hrequired⟩ := htold.exists_listed hps hlists
  obtain ⟨hmem, hpname⟩ := Keyed.find?_eq_some hp
  refine ⟨p, hmem, hpname, hrequired, fun q hq hqname => ?_⟩
  rw [← hqname, Keyed.find?_key_of_mem (Spec.names_nodup hps) hq] at hp
  exact Option.some.inj hp

/-! ## §6. Two members. -/

namespace Members

open Listing (members)

/-- A member that declares properties and requires some. -/
def member (declared required : List String) : Node := members
  [("required", .sequence (required.map .string)),
    ("properties", members (declared.map fun name => (name, members [("type", .string "string")])))]

/-- An allOf whose second member requires a property of the first one, and its own. -/
def agreeing : Node := members [("allOf", .sequence [member ["a", "b"] [], member ["c"] ["b", "c"]])]

/-- An allOf whose second member declares the property again that the first one declares and requires. -/
def differing : Node := members [("allOf", .sequence [member ["x"] ["x"], member ["x"] []])]

/-- A document that declares the schema `M` and nothing else. -/
def document (schema : Node) : Document where
  source := ⟨"", "api.yaml"⟩
  format := .yaml
  root := members [("components", members [("schemas", members [("M", schema)])])]

/-- The loader that serves the document alone. -/
def served (schema : Node) : Loader := .memory [("api.yaml", .ok (document schema))]

theorem knowsByName_served (schema : Node) : (served schema).KnowsByName := by
  refine Loader.knowsByName_memory fun e he d hd => ?_
  obtain rfl := List.mem_singleton.1 he
  rw [← Except.ok.inj hd]
  rfl

/-- The schema is one of those of a document that was visited. -/
theorem exists_schema {schema : Node} {v : Visited} (h : visited (served schema) {} "api.yaml" = .ok v)
    (hnames : ((visited (served schema) {} "api.yaml").map fun v =>
      v.documents.map fun e => e.1.filename).toOption = some ["api.yaml"]) :
    ∃ e ∈ v.documents, ("M", schema) ∈ e.1.root.declaredSchemas := by
  rw [h] at hnames
  have hnames : v.documents.map (fun e => e.1.filename) = ["api.yaml"] := Option.some.inj hnames
  obtain ⟨e, he, hname⟩ := List.mem_map.1 (hnames ▸ List.mem_singleton_self "api.yaml")
  have hload := (distinct_of_visited (knowsByName_served schema) h).served e he
  rw [hname] at hload
  refine ⟨e, he, ?_⟩
  rw [← Except.ok.inj hload]
  exact List.mem_singleton_self _

/-- The properties of all models of a spec: their names, and whether they are required. -/
def flags (s : Spec) : List (Option (List (String × Bool))) :=
  s.arena.map fun m => (s.allProperties m).toOption.map fun ps => ps.map fun p => (p.name, p.required)

/-- The properties of the one model of a spec. -/
theorem exists_allProperties {s : Spec} {expected : List (String × Bool)} (h : flags s = [some expected]) {m : Model}
    (hm : s.IsDeclared m) :
    ∃ ps, s.allProperties m = .ok ps ∧ ps.map (fun p => (p.name, p.required)) = expected := by
  have hmem : (s.allProperties m).toOption.map (fun ps => ps.map fun p => (p.name, p.required)) ∈ flags s :=
    List.mem_map_of_mem hm
  rw [h, List.mem_singleton] at hmem
  obtain ⟨ps, hps, htold⟩ := Option.map_eq_some_iff.1 hmem
  cases hall : s.allProperties m with
  | error e =>
    rw [hall] at hps
    exact absurd hps nofun
  | ok qs =>
    rw [hall] at hps
    exact ⟨ps, congrArg Except.ok (Option.some.inj hps), htold⟩

end Members

/-- Where the second member requires a property of the first one, and its own, both are required in the end. -/
theorem required_of_agreeing :
    ∃ s v, (build (Members.served Members.agreeing) {} "api.yaml").2 = .ok s ∧
      visited (Members.served Members.agreeing) {} "api.yaml" = .ok v ∧
      (∃ e ∈ v.documents, ("M", Members.agreeing) ∈ e.1.root.declaredSchemas) ∧
      Members.agreeing.kindKey? = some "allOf" ∧
      ∃ a ps, s.IsDeclared (.allOf a) ∧ a.name = "M" ∧ s.allProperties (.allOf a) = .ok ps ∧
        ∀ name ∈ ["b", "c"], Members.agreeing.listsRequired name = true ∧
          ∃ p ∈ ps, p.name = name ∧ p.required = true := by
  obtain ⟨s, hbuild, hflags⟩ := Outcome.exists_of_map
    (x := (build (Members.served Members.agreeing) {} "api.yaml").2) (f := Members.flags)
    (b := [some [("a", false), ("b", true), ("c", true)]]) (by decide +kernel)
  have hkind : Members.agreeing.kindKey? = some "allOf" := by decide +kernel
  obtain ⟨v, hvisited, hall⟩ := required_of_build hbuild
  obtain ⟨e, he, hschema⟩ := Members.exists_schema hvisited (by decide +kernel)
  obtain ⟨a, ha, hname, hlisted⟩ := hall e he _ hschema hkind
  obtain ⟨ps, hps, -⟩ := Members.exists_allProperties hflags ha
  refine ⟨s, v, hbuild, hvisited, ⟨e, he, hschema⟩, hkind, a, ps, ha, hname, hps, fun name hmem => ?_⟩
  have hlists : ∀ name ∈ ["b", "c"], Members.agreeing.listsRequired name = true ∧
      Members.agreeing.endsRequired name = true := by decide +kernel
  obtain ⟨p, hp, hpname, hrequired, -⟩ := hlisted ps hps name (hlists name hmem).1
  exact ⟨(hlists name hmem).1, p, hp, hpname, hrequired.trans (hlists name hmem).2⟩

/-- Where the second member declares the property again that the first one declares and requires, the property is
listed as required, and it is not required in the end. -/
theorem required_lost_in_differing :
    ∃ s m ps, (build (Members.served Members.differing) {} "api.yaml").2 = .ok s ∧
      Members.differing.kindKey? = some "allOf" ∧ Members.differing.listsRequired "x" = true ∧
      s.IsDeclared m ∧ m.name = "M" ∧ s.allProperties m = .ok ps ∧
      ps.map (fun p => (p.name, p.required)) = [("x", false)] := by
  obtain ⟨s, hbuild, htold⟩ := Outcome.exists_of_map
    (x := (build (Members.served Members.differing) {} "api.yaml").2) (f := fun s => (s.names, Members.flags s))
    (b := (["M"], [some [("x", false)]])) (by decide +kernel)
  obtain ⟨hnames, hflags⟩ := Prod.mk.inj htold
  obtain ⟨m, hdeclared, hname⟩ := List.mem_map.1 (hnames ▸ List.mem_singleton_self "M")
  obtain ⟨ps, hps, hflag⟩ := Members.exists_allProperties hflags hdeclared
  exact ⟨s, m, ps, hbuild, by decide +kernel, by decide +kernel, hdeclared, hname, hps, hflag⟩

end Build

end OpenApi
