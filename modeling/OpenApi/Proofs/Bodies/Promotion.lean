/-
  OpenApi.Proofs.Bodies.Promotion — objects that become models.

  An object that is declared in place of a body becomes a model, unless it is a form. The name is made of that of the
  operation, so it may be taken: then the model must have the same properties, and is shared, or the content is refused
  (`readContent_clashes`). Either way the content refers to a model with the properties of its object
  (`readContent_leaves`).
-/
import OpenApi.Proofs.Build.Growth
import OpenApi.Proofs.Closure.SchemaReaders
import OpenApi.Proofs.Closure.Written
import OpenApi.Proofs.Effects.Readers
import OpenApi.Proofs.Keyed

namespace OpenApi

/-! ## §1. Properties of an object. -/

/-- The properties as those of a model. -/
def owned (model : String) (properties : List Property) : List Property :=
  properties.map fun p => { p with owner := some model }

/-- Both are one list of properties, or lists that compare as equal. -/
def EqualProperties (a b : List Property) : Prop := a = b ∨ sameProperties a b = true

/-- The names of the properties are distinct, if the schema is an object. -/
def Schema.PropertiesDistinct (c : Schema) : Prop :=
  ∀ properties, c = .object properties → (properties.map Property.name).Nodup

theorem names_owned (model : String) (properties : List Property) :
    (owned model properties).map Property.name = properties.map Property.name := by
  rw [owned, List.map_map]
  rfl

namespace Spec

/-- The model of a name is generic, and has the properties. -/
def HasObject (s : Spec) (name : String) (g : GenericModel) (properties : List Property) : Prop :=
  s.modelNamed? name = some (.generic g) ∧ EqualProperties g.properties properties

/-- The name is that of a model of another kind, or of one with other properties. -/
def Clashes (s : Spec) (name : String) (properties : List Property) : Prop :=
  ∃ known, s.modelNamed? name = some known ∧
    ∀ g, known = .generic g → sameProperties g.properties properties = false

/-- The model of a name stays when a spec grows. -/
theorem Grows.modelNamed? {s t : Spec} (h : s.Grows t) {name : String} {m : Model} (hm : s.modelNamed? name = some m) :
    t.modelNamed? name = some m := by
  obtain ⟨changes, happly⟩ := h
  exact modelNamed?_applyAll happly hm

theorem HasObject.kept (name : String) (g : GenericModel) (properties : List Property) :
    Kept fun s => s.HasObject name g properties := fun _ _ hgrows h => ⟨hgrows.modelNamed? h.1, h.2⟩

end Spec

namespace Build

open Building (Gives Leaves)
open Spec (Kept)

/-! ## §2. Schemas. -/

/-- A schema that is an object is read as one. -/
theorem readSchemaTo_object {P : List Property → Prop} {owner : Owner} {m : Mapping}
    (h : ∀ height, (readObject (readSchemaTo height) owner m).Gives P) (height : Nat) :
    (readSchemaTo height owner m).Gives fun c => ∀ properties, c = .object properties → P properties := by
  cases height with
  | zero => exact .throw
  | succ height =>
    unfold readSchemaTo
    dsimp only
    split
    next => exact .map fun _ _ _ _ _ => by simp
    split
    next => exact .throw
    refine .after fun _ => .after fun found => ?_
    split
    next values _ =>
      unfold readEnumeration
      refine .after fun texts => .after fun typeName => ?_
      split
      next => exact .throw
      next => exact .pure fun _ => by simp
      next => exact .after fun _ => .pure fun _ => by simp
    split
    next =>
      refine .after fun _ => .map fun session object after hrun properties heq => ?_
      rw [← Schema.object.inj heq]
      exact h height session object after hrun
    next =>
      refine .after fun values => ?_
      split
      next => exact .after fun _ => .pure fun _ => by simp
      next =>
        refine .after fun _ => .after fun typeName => ?_
        split
        next => exact .map fun _ _ _ _ _ => by simp
        next => exact .after fun _ => .pure fun _ => by simp

/-- The names of the properties of an object that is read are distinct. -/
theorem readSchemaTo_distinct {height : Nat} (owner : Owner) (m : Mapping) :
    (readSchemaTo height owner m).Gives Schema.PropertiesDistinct := by
  refine readSchemaTo_object (fun _ => ?_) height
  unfold readObject
  -- properties are put one after the other, so that none shares its name
  exact .after fun required => .after fun properties => .pure (Keyed.nodup_putAll_nil properties)

/-! ## §3. Naming an object. -/

variable {properties : List Property} {name : String} {m : Mapping}

/-- The model that an object becomes has its properties. -/
theorem foldl_insert_empty (h : (properties.map Property.name).Nodup) :
    (properties.foldl GenericModel.insert (.empty name)).properties = owned name properties := by
  rw [← names_owned name] at h
  exact (properties_foldl_insert properties (.empty name)).trans (Keyed.putAll_of_nodup h)

/-- The reference to a model, which is recorded. -/
theorem refer_leaves {P : Spec → Prop} (r : SchemaRef) (h : ∀ s, P s) :
    (do
      Building.addReference r
      pure r : Building SchemaRef).Leaves fun r' s => r' = r ∧ P s :=
  .recorded (.addReference r) fun _ => .pure fun s => ⟨rfl, h s⟩

/-- **An object is named after a model that has its properties,** be it new or known. -/
theorem nameObject_leaves (hdistinct : (properties.map Property.name).Nodup) (contentType : String) :
    (nameObject properties name contentType m).Leaves fun r s =>
      r = .toModel m.filename name ∧ ∃ g, s.HasObject name g (owned name properties) := by
  unfold nameObject
  refine .asked fun s => ?_
  split
  next known hknown =>
    split
    next hsame =>
      rw [foldl_insert_empty hdistinct] at hsame
      refine (refer_leaves (P := fun t => s.Grows t → t.modelNamed? name = some (.generic known)) _ fun t hgrows =>
        hgrows.modelNamed? hknown).mono fun r t h hgrows => ?_
      exact ⟨h.1, known, h.2 hgrows, .inr hsame⟩
    next => exact .throw
  next => exact .throw
  next =>
    refine .reading fun described => .report fun _ => ?_
    -- a model that is added is found under its name
    have hadd : ∀ model : GenericModel, model.name = name → model.properties = owned name properties →
        (Building.update fun spec => spec.addModel m.filename (.generic model)).Leaves fun _ t =>
          ∃ g, t.HasObject name g (owned name properties) := by
      intro model hname hproperties session u after hrun
      obtain ⟨t, hadd, rfl⟩ := Building.run_update_ok hrun
      refine ⟨⟨[.model m.filename (.generic model)], by rw [Spec.applyAll_cons, Spec.apply, hadd]; rfl⟩, ?_⟩
      refine ⟨model, ?_, .inl hproperties⟩
      show t.modelNamed? name = _
      rw [(Spec.addModel_ok hadd).2, ← hname]
      exact Spec.modelNamed?_withModel_self
    refine Leaves.bind (fun _ => .exists fun g => Spec.HasObject.kept _ g _)
      (hadd _ (name_foldl_insert _) (foldl_insert_empty hdistinct)) fun _ => ?_
    exact (refer_leaves (P := fun _ => True) _ fun _ => trivial).mono fun r t hr hg _ => ⟨hr.1, hg⟩

/-- **An object whose name is taken by another model is refused.** -/
theorem nameObject_clashes (hdistinct : (properties.map Property.name).Nodup) {session : Session}
    (h : session.spec.Clashes name (owned name properties)) (contentType : String) :
    ((nameObject properties name contentType m).run.run session).1 = .error (m.unsupported
      ("second inline " ++ contentType ++ " body of '" ++ name ++ "' with a different shape")) := by
  obtain ⟨known, hknown, hother⟩ := h
  have hlook : Building.spec.run.run session = (.ok session.spec, session) := rfl
  unfold nameObject
  rw [Building.run_bind hlook, hknown]
  cases known with
  | generic g =>
    have hdiffers := hother g rfl
    rw [← foldl_insert_empty hdistinct] at hdiffers
    dsimp only
    rw [if_neg (by rw [hdiffers]; exact Bool.false_ne_true)]
    rfl
  | enumeration _ | oneOf _ | allOf _ | array _ => rfl

/-! ## §4. Reading a content. -/

variable {media : Mapping} {modelName declaredType : String}

/-- The schema of the content was read as an object, and the model of the name has its properties. -/
def ObjectRead (media : Mapping) (modelName : String) (g : GenericModel) (s : Spec) : Prop :=
  ∃ m properties, m.document = media.document ∧ media.node.value? "schema" = some m.node ∧
    (readSchema (.ofModel modelName) m).Passed (.object properties) s ∧
      s.HasObject modelName g (owned modelName properties)

theorem ObjectRead.kept (media : Mapping) (modelName : String) (g : GenericModel) : Kept (ObjectRead media modelName g) :=
  .exists fun _ => .exists fun _ => .and (.const _) (.and (.const _)
    (.and (Building.Passed.kept _ _) (Spec.HasObject.kept _ _ _)))

/-- What stands in the tree tells whether it is an object, and the type tells whether it is a form. -/
theorem becomesModel_eq {n : Node} (h : media.node.value? "schema" = some n) (required : Bool) (schema : Schema) :
    media.node.becomesModel declaredType =
      (n.isObject && !Content.isForm ⟨essence declaredType, required, schema⟩) := by
  rw [Node.becomesModel, h]
  rfl

/-- **A content that is an object refers to a model with the properties of the object.** -/
theorem readContent_leaves (required : Bool) :
    (readContent required modelName declaredType media).Leaves fun found s =>
      media.node.becomesModel declaredType = true →
        ∃ content g, found = some content ∧ content.schema = .ref (.toModel media.filename modelName) ∧
          ObjectRead media modelName g s := by
  unfold readContent
  refine .reading fun _ => Leaves.mapping (fun hnone l hl => ?_) fun m l hm hdocument hl => ?_
  · rw [hl]
    refine .report fun _ => .pure fun s h => ?_
    rw [Node.becomesModel, hnone] at h
    exact absurd h Bool.false_ne_true
  · rw [hl]
    have hfilename : m.filename = media.filename := congrArg Document.filename hdocument
    -- the reader and the node agree on what is an object, which is why only one of the three branches has anything
    -- to show
    have hgives : (readSchema (.ofModel modelName) m).Gives fun schema =>
        ((∃ properties, schema = .object properties) ↔ m.node.isObject = true) ∧ schema.PropertiesDistinct :=
      fun session schema after hrun =>
        ⟨(@readSchemaTo_finds m.filename _ _ m rfl session schema after hrun).1,
          readSchemaTo_distinct _ m session schema after hrun⟩
    refine Leaves.known (fun schema => Building.Passed.kept _ schema) hgives
      (Leaves.of_records (readSchema_records _ m)).passed fun schema hschema => ?_
    dsimp only
    split
    next properties =>
      split
      next hform =>
        refine .pure fun s _ h => ?_
        rw [becomesModel_eq hm required (.object properties), hform, Bool.not_true, Bool.and_false] at h
        exact absurd h Bool.false_ne_true
      next =>
        refine Leaves.bind (fun r => .and (.const _) (.exists fun g => Spec.HasObject.kept _ g _))
          (nameObject_leaves (hschema.2 properties rfl) _) fun r => .pure fun s hnamed hpassed _ => ?_
        obtain ⟨rfl, g, hg⟩ := hnamed
        exact ⟨_, g, rfl, by rw [hfilename], m, properties, hdocument, hm, hpassed, hg⟩
    next hother =>
      refine .pure fun s _ h => ?_
      rw [becomesModel_eq hm required schema, Bool.and_eq_true] at h
      obtain ⟨properties, heq⟩ := hschema.1.2 h.1
      exact absurd heq (hother properties)

/-- The mapping that stands under a key is found there. -/
theorem run_mapping {key : String} {m : Mapping} (hm : media.Holds key (key, m)) (session : Session) :
    ∃ l, l.optional = some m ∧ (liftM (media.mapping key) : Building (Lookup Mapping)).run.run session =
      (.ok l, { session with usage := session.usage.markRead (media.child key) }) := by
  obtain ⟨l, hlook, hl⟩ := Mapping.holds_iff.1 hm
  refine ⟨l, Lookup.required_eq_ok.1 hl, (Building.run_lookup media key _ session).trans ?_⟩
  rw [hlook, if_pos hm.containsKey]

/-- **A content that is an object is refused, if its name is taken by another model.** -/
theorem readContent_clashes {m : Mapping} {properties : List Property} {session elsewhere : Session}
    (hm : media.Holds "schema" ("schema", m)) (hbecomes : media.node.becomesModel declaredType = true)
    (hread : ((readSchema (.ofModel modelName) m).run.run elsewhere).1 = .ok (.object properties))
    (hclashes : session.spec.Clashes modelName (owned modelName properties)) (required : Bool) :
    ((readContent required modelName declaredType media).run.run session).1 = .error (m.unsupported
      ("second inline " ++ essence declaredType ++ " body of '" ++ modelName ++ "' with a different shape")) := by
  have hvalue : media.node.value? "schema" = some m.node :=
    Node.value?_eq_some.2 ⟨hm.found, by rw [hm.kind]; exact nofun⟩
  -- reading a schema gives the same object from every session, and adds no model
  obtain ⟨result, e, -, hgoes⟩ := (readSchemaTo_steady _ m : (readSchema (.ofModel modelName) m).Steady .nothing)
    elsewhere trivial
  obtain rfl : result = .ok (.object properties) := (hgoes elsewhere trivial).1.symm.trans hread
  have hobject : ∀ usage, ∃ middle : Session,
      (readSchema (.ofModel modelName) m).run.run { session with usage } = (.ok (.object properties), middle) ∧
        middle.spec.Clashes modelName (owned modelName properties) := by
    intro usage
    obtain ⟨hresult, hleads⟩ := hgoes { session with usage } trivial
    refine ⟨_, Prod.ext hresult rfl, ?_⟩
    obtain ⟨known, hknown, hother⟩ := hclashes
    exact ⟨known, Spec.Grows.modelNamed? ⟨e.changes, hleads.spec⟩ hknown, hother⟩
  unfold readContent
  rw [Building.run_bind (Building.run_ignore _ _ _)]
  obtain ⟨l, hl, hschema⟩ := run_mapping hm
    { session with usage := media.passedOver ["example", "examples", "encoding"] session.usage }
  rw [Building.run_bind hschema, hl]
  obtain ⟨middle, hrun, hclash⟩ := hobject _
  dsimp only
  rw [Building.run_bind hrun]
  have hform : Content.isForm ⟨essence declaredType, required, .object properties⟩ = false := by
    rw [becomesModel_eq hvalue required (.object properties), Bool.and_eq_true, Bool.not_eq_true'] at hbecomes
    exact hbecomes.2
  have hdistinct : (properties.map Property.name).Nodup :=
    readSchemaTo_distinct _ m elsewhere _ _ (Prod.ext hread rfl) properties rfl
  dsimp only
  rw [hform, if_neg Bool.false_ne_true]
  have hrefused := nameObject_clashes (m := m) hdistinct hclash (essence declaredType)
  rw [Building.run_bind_error (Prod.ext hrefused rfl)]

end Build

end OpenApi
