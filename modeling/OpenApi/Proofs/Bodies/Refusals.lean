/-
  OpenApi.Proofs.Bodies.Refusals — documents that no spec is built of, because bodies have one name.

  Objects that become models of one name are one model in the end. So they declare the same properties, and a named
  schema of that name has properties, the same ones (`agree_of_build`). No spec is built of a document in which this
  fails (`build_fails_of_disputed`).
-/
import Mathlib.Data.List.Perm.Subperm
import OpenApi.Proofs.Bodies.Shapes
import OpenApi.Proofs.Required.Members

namespace OpenApi

/-! ## §1. Names of properties. -/

/-- The model has the properties that the node declares. -/
def GenericModel.Declares (g : GenericModel) (n : Node) : Prop :=
  ∀ name, (∃ p ∈ g.properties, p.name = name) ↔ name ∈ n.declaredNames

/-- A property that has an equal one in another list has its name there. -/
theorem names_subset_of_allSame {a b : List Property} (h : allSame a b = true) :
    a.map Property.name ⊆ b.map Property.name := by
  induction a with
  | nil => exact List.nil_subset _
  | cons p rest ih =>
    cases p
    rw [allSame, Bool.and_eq_true] at h
    obtain ⟨hfirst, hrest⟩ := h
    refine List.cons_subset.2 ⟨?_, ih hrest⟩
    split at hfirst
    next q hq =>
      obtain ⟨hmem, hname⟩ := Keyed.find?_eq_some hq
      exact List.mem_map.2 ⟨q, hmem, hname⟩
    next => exact absurd hfirst Bool.false_ne_true

/-- Lists of properties that compare as equal have the same names. -/
theorem EqualProperties.names {a b : List Property} (h : EqualProperties a b) (hdistinct : (a.map Property.name).Nodup)
    (name : String) : (∃ p ∈ a, p.name = name) ↔ ∃ p ∈ b, p.name = name := by
  obtain rfl | hsame := h
  · exact Iff.rfl
  rw [sameProperties, Bool.and_eq_true, decide_eq_true_eq] at hsame
  -- as many names as there are in the other list, all of them there and no two alike
  have hperm : (a.map Property.name).Perm (b.map Property.name) :=
    (hdistinct.subperm (names_subset_of_allSame hsame.2)).perm_of_length_le (by
      rw [List.length_map, List.length_map, hsame.1])
  simpa using hperm.mem_iff (a := name)

namespace Build

open Building (Gives)

/-- A generic model that is read has the properties that the schema declares, no two of one name. -/
structure GenericRead (n : Node) (g : GenericModel) : Prop where
  has : n.has "properties" = true
  declares : g.Declares n
  distinct : (g.properties.map Property.name).Nodup

theorem readGeneric_read {m : Mapping} (hhas : m.node.has "properties" = true) (name : String)
    (description : Option String) : (readGeneric name description m).Gives (GenericRead m.node) := by
  unfold readGeneric
  refine .after fun _ => .after fun required => Gives.bind (fun session ps after hrun =>
    (readProperties_leaves (fun owner c => readSchemaTo_leaves _ owner c) (.ofModel name) required session ps after
      hrun).2) fun ps hps => .pure ?_
  have hproperties : (ps.foldl GenericModel.insert (.empty name)).properties =
      Keyed.putAll Property.name [] (owned name ps) := properties_foldl_insert ps (.empty name)
  have hnames : ps.map Property.name = m.node.declaredNames :=
    List.forall₂_eq_eq_eq ▸ List.forall₂_map_left_iff.2 (hps.flip.imp fun p name h => h.1)
  refine ⟨hhas, fun property => ?_, ?_⟩
  · have hkeys : (∃ p ∈ (ps.foldl GenericModel.insert (.empty name)).properties, p.name = property) ↔
        property ∈ (Keyed.putAll Property.name [] (owned name ps)).map Property.name := by
      rw [hproperties, List.mem_map]
    exact hkeys.trans (by rw [Keyed.map_putAll_nil, List.mem_eraseDups, names_owned, hnames])
  · exact hproperties ▸ Keyed.nodup_putAll_nil _

/-- A schema is read to be a generic model, if it has properties. -/
theorem readModel_read (name : String) (m : Mapping) :
    (readModel name m).Gives fun model => ∀ g, model = .generic g → GenericRead m.node g := by
  unfold readModel
  refine .after fun _ => .after fun description => ?_
  split
  next hproperties =>
    refine .map fun session g after hrun g' heq => ?_
    rw [← Model.generic.inj heq]
    exact readGeneric_read hproperties name _ session g after hrun
  split
  next => exact .map fun _ _ _ _ _ => by simp
  split
  next => exact .map fun _ _ _ _ _ => by simp
  split
  next => exact .map fun _ _ _ _ _ => by simp
  refine .after fun typeName => ?_
  split
  next => exact .after fun array => .pure fun _ => by simp
  next => exact .throw

/-- The properties of a generic model that was read have distinct names. -/
theorem ModelRead.distinct {g : GenericModel} (h : ModelRead (.generic g)) :
    (g.properties.map Property.name).Nodup := by
  generalize hmodel : Model.generic g = model at h
  cases h with
  | named hrun => exact (readModel_read _ _ _ _ _ hrun g hmodel.symm).distinct
  | @promoted name _ properties =>
    obtain rfl := Model.generic.inj hmodel
    show ((properties.foldl GenericModel.insert (.empty name)).properties.map Property.name).Nodup
    rw [properties_foldl_insert]
    exact Keyed.nodup_putAll_nil _

end Build

/-! ## §2. Bodies of one name. -/

/-- The names of the properties that the schema of the content declares. -/
def BodyContent.propertyNames (c : BodyContent) : List String :=
  ((c.media.value? "schema").map Node.declaredNames).getD []

namespace Build

variable {loader : Loader} {options : Options} {entry : String} {s : Spec} {d : Document} {c : BodyContent}

/-- The model that the object of a content became has the properties that the object declares. -/
theorem Promoted.declares {media : Mapping} {g : GenericModel} (hpromoted : Promoted media c g s)
    (hdistinct : (g.properties.map Property.name).Nodup) (name : String) :
    (∃ p ∈ g.properties, p.name = name) ↔ name ∈ c.propertyNames := by
  obtain ⟨m, properties, -, hschema, ⟨session, after, hrun, -⟩, -, hequal⟩ := hpromoted.object
  have hobject : (readSchema (.ofModel c.modelName) m).Gives fun schema =>
      ∀ properties, schema = .object properties → m.node.Gives [] properties :=
    readSchemaTo_object (fun height session object after hrun =>
      (readObject_leaves (fun owner c => readSchemaTo_leaves height owner c) _ session object after hrun).2) _
  have hgives : m.node.Gives [] properties := hobject session _ after hrun properties rfl
  have howned : (∃ p ∈ owned c.modelName properties, p.name = name) ↔ ∃ p ∈ properties, p.name = name := by
    simpa using Eq.to_iff (congrArg (name ∈ ·) (names_owned c.modelName properties))
  rw [hequal.names hdistinct, howned, hgives.names, BodyContent.propertyNames, ← hpromoted.node, hschema]
  rfl

/-- **Bodies of one name agree.** An object of the entry document that became a model has the properties of that model,
whatever else became it; and a named schema of its name has properties, the same ones. -/
theorem agree_of_build (h : (build loader options entry).2 = .ok s) (hload : (loader.load entry).2 = .ok d)
    (hc : c ∈ d.root.allContents) (hbecomes : c.media.becomesModel c.declaredType = true) :
    ∃ g, s.modelNamed? c.modelName = some (.generic g) ∧
      (∀ name, (∃ p ∈ g.properties, p.name = name) ↔ name ∈ c.propertyNames) ∧
      ∀ e ∈ d.root.declaredSchemas, e.1 = c.modelName → e.2.has "properties" = true ∧ g.Declares e.2 := by
  obtain ⟨d', hload', hall⟩ := exists_promoted_of_build h
  obtain rfl : d' = d := Except.ok.inj (hload'.symm.trans hload)
  obtain ⟨media, g, -, hpromoted, hdeclared, -⟩ := hall c hc hbecomes
  obtain ⟨-, -, -, -, -, hnamed, -⟩ := hpromoted.object
  have hdistinct : (g.properties.map Property.name).Nodup :=
    (modelRead_of_build h (Spec.isDeclared_of_modelNamed? hnamed)).distinct
  refine ⟨g, hnamed, hpromoted.declares hdistinct, fun e he hname => ?_⟩
  obtain ⟨m, -, hnode, session, after, hrun, -⟩ := hdeclared e he hname
  have hread : GenericRead m.node g := readModel_read e.1 m session _ after hrun g rfl
  exact hnode ▸ ⟨hread.has, hread.declares⟩

/-- Another object that becomes a model, or a named schema, has the name of the content, but not the same properties. -/
inductive Disputed (root : Node) (c : BodyContent) : Prop
  | content {c' : BodyContent} {name : String} (hc' : c' ∈ root.allContents)
      (hbecomes : c'.media.becomesModel c'.declaredType = true) (hname : c'.modelName = c.modelName)
      (hdiffers : ¬ (name ∈ c'.propertyNames ↔ name ∈ c.propertyNames))
  | schema {e : String × Node} {name : String} (he : e ∈ root.declaredSchemas) (hname : e.1 = c.modelName)
      (hdiffers : ¬ (name ∈ e.2.declaredNames ↔ name ∈ c.propertyNames))
  /-- An enumeration, a composition or an array. -/
  | kind {e : String × Node} (he : e ∈ root.declaredSchemas) (hname : e.1 = c.modelName)
      (hkind : e.2.has "properties" = false)

/-- **A build fails if a name is disputed:** two objects of one name cannot be one model unless they have the same
properties, nor can an object and a named schema. -/
theorem build_fails_of_disputed (hload : (loader.load entry).2 = .ok d) (hc : c ∈ d.root.allContents)
    (hbecomes : c.media.becomesModel c.declaredType = true) (h : Disputed d.root c) :
    ∃ e, (build loader options entry).2 = .error e := by
  cases hbuild : (build loader options entry).2 with
  | error e => exact ⟨e, rfl⟩
  | ok s =>
    obtain ⟨g, hnamed, hnames, hschemas⟩ := agree_of_build hbuild hload hc hbecomes
    exfalso
    cases h with
    | @content c' name hc' hbecomes' hname hdiffers =>
      obtain ⟨g', hnamed', hnames', -⟩ := agree_of_build hbuild hload hc' hbecomes'
      rw [hname, hnamed] at hnamed'
      obtain rfl : g = g' := Model.generic.inj (Option.some.inj hnamed')
      exact hdiffers ((hnames' name).symm.trans (hnames name))
    | @schema e name he hname hdiffers =>
      exact hdiffers (((hschemas e he hname).2 name).symm.trans (hnames name))
    | kind he hname hkind =>
      rw [(hschemas _ he hname).1] at hkind
      exact absurd hkind nofun

/-! ## §3. Two operations of one name. -/

namespace Doubled

open Listing (members)

/-- A path item whose operation gives an object with one property. -/
def item (id property : String) : Node := members
  [("get", members [("operationId", .string id), ("responses", members [("200", members [("content", members
    [("application/json", members [("schema", members [("properties", members
      [(property, members [("type", .string "string")])])])])])])])])]

/-- The objects of both responses get the name `ListPets200Response`. -/
def document : Document where
  source := ⟨"", "api.yaml"⟩
  format := .yaml
  root := members [("paths", members [("/pets", item "listPets" "id"), ("/list", item "list-pets" "name")])]

end Doubled

example : ((build (.memory [("api.yaml", .ok Doubled.document)]) {} "api.yaml").2.map fun s => s.count).mapError
    Error.errorClass = .error .unsupportedShape := by decide +kernel

end Build

end OpenApi
