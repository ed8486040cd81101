/-
  OpenApi.Proofs.Closure.SchemaReaders — what is found in schemas.

  Reading a schema finds the references that are written in it, as `Node.SchemaRefers` and `Node.ModelRefers` tell,
  and gives an object exactly where one stands. Reading a named schema also declares a model of that name.
-/
import OpenApi.Proofs.Build.ModelReaders
import OpenApi.Proofs.Closure.Findings

namespace OpenApi.Build

open Building (Finds Silent Gives)

variable {m : Mapping} {file : String}

/-! ## §1. References and lists. -/

/-- A reference that is read was written under its key. -/
theorem readReference_finds (hfile : m.filename = file) :
    (readReference m).Finds file (fun _ => True) (.references fun raw => m.node.textAt? "$ref" = some raw) := by
  unfold readReference
  refine Finds.string fun l hl => ?_
  cases htext : m.node.textAt? "$ref" with
  | none => exact .required_missing (hl.trans htext)
  | some raw =>
    refine .required (hl.trans htext) ?_
    rw [hfile]
    split
    next => exact .throw
    next => exact .throw
    next r hr =>
      refine .reading fun _ => (Finds.last (Finds.addReference hr) fun _ _ => .pure trivial).congr ?_
      exact Findings.references_congr fun raw' => by rw [Option.some.injEq, eq_comm]

/-- An enumeration has no references, and is no object. -/
theorem readEnumeration_finds (m : Mapping) (owner : Owner) (values : Sequence) :
    (readEnumeration m owner values).Finds file (fun a => ∀ ps, a ≠ .object ps) .none := by
  unfold readEnumeration
  refine .lift fun texts _ => .reading fun typeName => ?_
  split
  next => exact .throw
  next => exact .pure fun _ => nofun
  next => exact .reading fun description => .pure fun _ => nofun

/-! ## §2. Parts of schemas. -/

section

variable {build : Mapping → Building Schema}
  (hbuild : ∀ c, c.filename = file → (build c).Finds file (fun _ => True) (.references c.node.SchemaRefers))
include hbuild

/-- Is it a map, and what is found in the schema of its values. -/
theorem readMapValues_finds (hfile : m.filename = file) :
    (readMapValues build m).Finds file (fun values => values.isSome = m.node.isMap)
      (.each m.node.mapValues fun c => .references c.SchemaRefers) := by
  have hkind : m.kindOf "additionalProperties" = (m.node.get? "additionalProperties").map Node.kind := rfl
  have hnone : m.node.value? "additionalProperties" = none → (Pure.pure none : Building (Option Schema)).Finds file
      (fun values => values.isSome = m.node.isMap) (.each m.node.mapValues fun c => .references c.SchemaRefers) := by
    intro hvalue
    have hmap := Node.isMap_of_none hvalue
    rw [Node.mapValues_of_not_isMap hmap, Findings.each_nil]
    exact .pure hmap.symm
  unfold readMapValues
  split
  next h =>
    refine Finds.mapping (fun _ l hl => .required_missing hl) fun c l hc hcfile hl => .required hl ?_
    have hmapping : c.node.kind = .mapping := by
      rw [hkind, (Node.value?_eq_some.1 hc).1] at h
      exact Option.some.inj h
    have hmap := Node.isMap_of_mapping hc hmapping
    rw [Node.mapValues_of_mapping hc hmapping]
    split
    next hempty =>
      have hkeys : c.node.keys.isEmpty = true := hempty
      rw [if_pos hkeys, Findings.each_nil]
      exact .pure hmap.symm
    next hempty =>
      have hkeys : ¬c.node.keys.isEmpty = true := hempty
      rw [if_neg hkeys, Findings.each_cons, Findings.each_nil, Findings.and_none]
      exact (hbuild c (hcfile.trans hfile)).map fun _ _ => hmap.symm
  next h =>
    rw [hkind, Option.map_eq_none_iff] at h
    exact hnone (Node.value?_eq_none.2 fun c hc => absurd (h.symm.trans hc) nofun)
  next h =>
    rw [hkind, Option.map_eq_some_iff] at h
    obtain ⟨c, hc, hnull⟩ := h
    refine hnone (Node.value?_eq_none.2 fun c' hc' => ?_)
    rw [hc] at hc'
    cases hc'
    exact hnull
  next kind hmapping _ h =>
    -- neither a mapping nor null: only a boolean is accepted, and only `true` makes a map
    refine Finds.boolean (fun hvalue l hl => ?_) fun c b l hc hb hl => ?_
    · unfold Lookup.getD
      rw [hl]
      exact hnone hvalue
    · unfold Lookup.getD
      rw [hl]
      have hother : c.kind ≠ .mapping := by
        rw [hkind, (Node.value?_eq_some.1 hc).1] at h
        rintro heq
        exact hmapping (h.symm.trans (congrArg some heq) |> Option.some.inj)
      rw [Node.mapValues_of_other hc hother, Findings.each_nil, Node.isMap_of_other hc hother]
      refine .pure ?_
      cases b with
      | true => exact (decide_eq_true (hb.1 rfl)).symm
      | false => exact (decide_eq_false fun htext => absurd (hb.2 htext) nofun).symm

/-- Reading an array finds what is in the schema of its items. -/
theorem readArray_finds (hfile : m.filename = file) :
    (readArray build m).Finds file (fun _ => True)
      (.each (m.node.value? "items").toList fun c => .references c.SchemaRefers) := by
  unfold readArray
  refine Finds.mapping (fun _ l hl => .required_missing hl) fun c l hc hcfile hl => .required hl ?_
  rw [hc, Option.toList_some, Findings.each_cons, Findings.each_nil, Findings.and_none]
  refine (hbuild c (hcfile.trans hfile)).last fun items _ => ?_
  exact .reading fun _ => .reading fun _ => .reading fun _ => .pure trivial

theorem readProperty_finds (hfile : m.filename = file) (owner : Owner) (name : String) (required : Bool) :
    (readProperty build owner name required m).Finds file (fun _ => True) (.references m.node.SchemaRefers) := by
  unfold readProperty
  refine .reading fun _ => .reading fun _ => .reading fun _ => .reading fun _ => .reading fun _ => ?_
  exact (hbuild m hfile).last fun schema _ => .pure trivial

end

section

variable {build : Owner → Mapping → Building Schema}
  (hbuild : ∀ owner c, c.filename = file →
    (build owner c).Finds file (fun _ => True) (.references c.node.SchemaRefers))
include hbuild

theorem readProperties_finds (hfile : m.filename = file) (owner : Owner) (required : List String) :
    (readProperties build owner required m).Finds file (fun _ => True)
      (.each (m.node.valuesAt "properties") fun c => .references c.SchemaRefers) := by
  unfold readProperties
  refine Finds.mapping (fun hnone l hl => ?_) fun c l hc hcfile hl => ?_
  · rw [hl, Node.valuesAt_of_none hnone, Findings.each_nil]
    exact .pure trivial
  · rw [hl]
    refine Finds.mappingEntries fun entries hentries hfiles => ?_
    refine (Finds.mapM fun e he => readProperty_finds (hbuild _) ((hfiles e he).trans (hcfile.trans hfile)) _ _ _).congr
      ?_
    unfold Node.valuesAt
    rw [Node.membersAt_of_value? hc, ← hentries, Findings.each_map, Findings.each_map]

theorem readObject_finds (hfile : m.filename = file) (owner : Owner) :
    (readObject build owner m).Finds file (fun _ => True)
      (.each (m.node.valuesAt "properties") fun c => .references c.SchemaRefers) := by
  unfold readObject
  refine .after (readTexts_silent m _) fun required => ?_
  exact (readProperties_finds hbuild hfile owner required).last fun ps _ => .pure trivial

end

/-! ## §3. Schemas. -/

/-- Where there is a map, the items of an array are not looked for. -/
theorem each_values_and_items (n : Node) :
    (Findings.each n.mapValues fun c => .references c.SchemaRefers).and
      (if n.isMap then .none else .each n.arrayItems fun c => .references c.SchemaRefers) =
        .each (if n.isMap then n.mapValues else n.arrayItems) fun c => .references c.SchemaRefers := by
  cases hmap : n.isMap with
  | true => exact Findings.and_none _
  | false =>
    rw [Node.mapValues_of_not_isMap hmap, Findings.each_nil]
    exact Findings.none_and _

/-- What is found in the parts of a schema that is no reference is found in the schema. -/
theorem each_parts {n : Node} (hplain : n.has "$ref" = false) :
    (.each n.parts fun c => .references c.SchemaRefers) = Findings.references n.SchemaRefers := by
  rw [Findings.each_references]
  refine Findings.references_congr fun raw => ⟨?_, fun h => ?_⟩
  · rintro ⟨part, hpart, h⟩
    exact .inside hplain hpart h
  · cases h with
    | here htext =>
      unfold Node.textAt? at htext
      obtain ⟨c, hc, -⟩ := Option.bind_eq_some_iff.1 htext
      rw [Node.has_of_value? hc] at hplain
      exact absurd hplain nofun
    | inside _ hpart h => exact ⟨_, hpart, h⟩

theorem references_of_ref {n : Node} (href : n.has "$ref" = true) :
    Findings.references (fun raw => n.textAt? "$ref" = some raw) = .references n.SchemaRefers := by
  refine Findings.references_congr fun raw => ⟨.here, fun h => ?_⟩
  cases h with
  | here h => exact h
  | inside hplain => rw [href] at hplain; exact absurd hplain nofun

section

variable {build : Mapping → Building Schema}
  (hbuild : ∀ c, c.filename = file → (build c).Finds file (fun _ => True) (.references c.node.SchemaRefers))
include hbuild

/-- A schema that is told by its type is no object, and has the parts of an array, if it is one. -/
theorem readTyped_finds (hfile : m.filename = file) :
    (do
      let typeName ← (← m.string "type").required
      if typeName = "array" then Schema.array <$> readArray build m
      else
        let format := (← m.string "format").optional
        pure (Schema.primitive ⟨typeName, format⟩) : Building Schema).Finds file (fun a => ∀ ps, a ≠ .object ps)
      (.each m.node.arrayItems fun c => .references c.SchemaRefers) := by
  refine Finds.string fun l hl => ?_
  cases htype : m.node.textAt? "type" with
  | none => exact .required_missing (hl.trans htype)
  | some typeName =>
    refine .required (hl.trans htype) ?_
    split
    -- only an array holds a schema of its own; any other type finds nothing
    next harray =>
      rw [Node.arrayItems_of_array (harray ▸ htype)]
      exact (readArray_finds hbuild hfile).map fun _ _ => by simp
    next harray =>
      rw [Node.arrayItems_of_other htype harray, Findings.each_nil]
      exact .reading fun _ => .pure (by simp)

end

/-- Where no object stands, none is given. -/
theorem object_iff {n : Node} {a : Schema} (hother : n.isObject = false) (ha : ∀ ps, a ≠ .object ps) :
    (∃ ps, a = .object ps) ↔ n.isObject = true := by
  rw [hother]
  constructor
  · rintro ⟨ps, hps⟩
    exact absurd hps (ha ps)
  · exact fun h => absurd h Bool.false_ne_true

/-- **Reading a schema finds the references that are written in it,** and gives an object where one stands. -/
theorem readSchemaTo_finds {height : Nat} : ∀ (owner : Owner) (m : Mapping), m.filename = file →
    (readSchemaTo height owner m).Finds file (fun a => (∃ ps, a = .object ps) ↔ m.node.isObject = true)
      (.references m.node.SchemaRefers) := by
  -- the parts of a schema are read with one height less; at height zero nothing is read
  induction height with
  | zero => exact fun owner m _ => .throw
  | succ height ih =>
    intro owner m hfile
    have hbuild : ∀ owner c, c.filename = file →
        (readSchemaTo height owner c).Finds file (fun _ => True) (.references c.node.SchemaRefers) :=
      fun owner c hc => (ih owner c hc).mono fun _ _ => trivial
    unfold readSchemaTo
    dsimp only
    split
    next href =>
      have hreference : m.node.has "$ref" = true := href
      rw [← references_of_ref hreference]
      exact (readReference_finds hfile).map fun r _ => object_iff (by simp [Node.isObject, hreference]) (by simp)
    next href =>
      have hplain : m.node.has "$ref" = false := Bool.eq_false_iff.2 href
      rw [← each_parts hplain]
      split
      next => exact .throw
      refine .reading fun _ => Finds.sequence (fun henum l hl => ?_) fun values l henum _ hl => ?_
      · rw [hl]
        dsimp only
        split
        next hproperties =>
          have hobject : m.node.has "properties" = true := hproperties
          rw [Node.parts_of_properties henum hobject]
          refine .reading fun _ => (readObject_finds hbuild hfile owner).map fun ps _ => ?_
          exact iff_of_true ⟨ps, rfl⟩ (by simp [Node.isObject, hplain, henum, hobject])
        next hproperties =>
          have hobject : m.node.has "properties" = false := Bool.eq_false_iff.2 hproperties
          rw [Node.parts_of_none henum hobject, ← each_values_and_items]
          refine ((readMapValues_finds (hbuild owner) hfile).bind fun values hmap => ?_).mono fun _ =>
            object_iff (by simp [Node.isObject, hobject])
          rw [← hmap]
          cases values with
          | some values => exact .reading fun _ => .pure (by simp)
          | none => exact readTyped_finds (hbuild owner) hfile
      · rw [hl, Node.parts_of_enum henum, Findings.each_nil]
        exact (readEnumeration_finds m owner values).mono fun _ => object_iff (by simp [Node.isObject, henum])

/-! ## §4. Named schemas. -/

theorem readSchemaTo_refers {height : Nat} (owner : Owner) (c : Mapping) (hc : c.filename = file) :
    (readSchemaTo height owner c).Finds file (fun _ => True) (.references c.node.SchemaRefers) :=
  (readSchemaTo_finds owner c hc).mono fun _ _ => trivial

theorem readGeneric_finds (hfile : m.filename = file) (name : String) (description : Option String) :
    (readGeneric name description m).Finds file (fun _ => True)
      (.each (m.node.valuesAt "properties") fun c => .references c.SchemaRefers) := by
  unfold readGeneric
  refine .reading fun _ => .after (readTexts_silent m _) fun required => ?_
  exact (readProperties_finds readSchemaTo_refers hfile _ required).last fun ps _ => .pure trivial

theorem readEnum_finds (name : String) (description : Option String) (m : Mapping) :
    (readEnum name description m).Finds file (fun _ => True) .none := by
  unfold readEnum
  refine .reading fun found => .lift fun values _ => .lift fun values _ => ?_
  split
  next => exact .throw
  next => exact .reading fun _ => .pure trivial

/-- What is found in a member of an allOf. -/
def memberFindings (n : Node) : Findings :=
  .references fun raw => n.textAt? "$ref" = some raw ∨
    n.has "$ref" = false ∧ ∃ p ∈ n.valuesAt "properties", p.SchemaRefers raw

theorem memberFindings_of_ref {n : Node} (href : n.has "$ref" = true) :
    memberFindings n = .references fun raw => n.textAt? "$ref" = some raw := by
  refine Findings.references_congr fun raw => ⟨fun h => ?_, .inl⟩
  rcases h with h | ⟨hplain, -⟩
  · exact h
  · rw [href] at hplain
    exact absurd hplain nofun

theorem memberFindings_of_plain {n : Node} (hplain : n.has "$ref" = false) :
    memberFindings n = .each (n.valuesAt "properties") fun p => .references p.SchemaRefers := by
  rw [Findings.each_references]
  refine Findings.references_congr fun raw => ⟨fun h => ?_, fun h => .inr ⟨hplain, h⟩⟩
  rcases h with h | ⟨-, h⟩
  · rw [Node.textAt?_of_not_has hplain] at h
    exact absurd h nofun
  · exact h

theorem memberFindings_of_none {n : Node} (hplain : n.has "$ref" = false) (hnone : n.has "properties" = false) :
    memberFindings n = .none := by
  rw [memberFindings_of_plain hplain, Node.valuesAt_of_none (Node.value?_of_not_has hnone), Findings.each_nil]

theorem readMember_finds (hfile : m.filename = file) (model : AllOfModel) :
    (readMember model m).Finds file (fun _ => True) (memberFindings m.node) := by
  unfold readMember
  split
  -- the order of the reader: a reference wins over properties, and properties over everything else
  next href =>
    rw [memberFindings_of_ref href]
    exact (readReference_finds hfile).last fun r _ => .pure trivial
  next href =>
    have hplain : m.node.has "$ref" = false := Bool.eq_false_iff.2 href
    split
    next =>
      rw [memberFindings_of_plain hplain]
      refine .reading fun _ => (readObject_finds readSchemaTo_refers hfile _).last fun object _ => ?_
      exact .after (readTexts_silent m _) fun required => .pure trivial
    next hproperties =>
      rw [memberFindings_of_none hplain (Bool.eq_false_iff.2 hproperties)]
      split
      next => exact .reading fun _ => .after (readTexts_silent m _) fun required => .pure trivial
      split
      next => exact .reading fun _ => .report fun _ => .pure trivial
      next => exact .throw

theorem readAllOf_finds (hfile : m.filename = file) (name : String) (description : Option String) :
    (readAllOf name description m).Finds file (fun _ => True) (.each (m.node.itemsAt "allOf") memberFindings) := by
  unfold readAllOf
  refine .reading fun _ => .after (readTexts_silent m _) fun required => ?_
  refine Finds.sequence (fun _ l hl => .required_missing hl) fun members l hc hcfile hl => .required hl ?_
  refine Finds.mappings fun ms hms hfiles => ?_
  rw [Node.itemsAt_of_value? hc, ← hms, Findings.each_map]
  refine Finds.last (P := fun _ => True) (Finds.foldlM (fun model c hc => ?_) _) fun _ _ => .pure trivial
  exact readMember_finds ((hfiles c hc).trans (hcfile.trans hfile)) model

theorem readTarget_finds (hfile : m.filename = file) (value : String) :
    (readTarget m value).Finds file (fun _ => True) (.references fun raw => m.node.textAt? value = some raw) := by
  unfold readTarget
  refine Finds.string fun l hl => ?_
  cases htext : m.node.textAt? value with
  | none => exact .required_missing (hl.trans htext)
  | some raw =>
    refine .required (hl.trans htext) ?_
    rw [hfile]
    split
    next => exact .throw
    next r hr =>
      refine ((Finds.addReference hr).last fun _ _ => .pure trivial).congr ?_
      exact Findings.references_congr fun raw' => by rw [Option.some.injEq, eq_comm]

/-- What is found in the mapping of a discriminator. -/
def targetFindings (n : Node) : Findings :=
  .references fun raw => ∃ v ∈ n.valuesAt "mapping", v.scalarText = some raw

theorem readDiscriminator_finds (hfile : m.filename = file) :
    (readDiscriminator m).Finds file (fun _ => True) (targetFindings m.node) := by
  unfold readDiscriminator targetFindings
  refine .reading fun propertyName => Finds.mapping (fun hnone l hl => ?_) fun c l hc hcfile hl => ?_
  · rw [hl, Node.valuesAt_of_none hnone]
    exact (Finds.pure trivial).congr (Findings.references_congr fun raw => by simp)
  · rw [hl, Node.valuesAt_of_value? hc]
    refine ((Finds.mapM fun key _ => readTarget_finds (hcfile.trans hfile) key).last fun entries _ =>
      .pure trivial).congr ?_
    rw [Findings.each_references]
    exact Findings.references_congr fun raw => Node.exists_textAt?

/-- What is found in a oneOf: its members are references, and so are the targets of its discriminator. -/
theorem readOneOf_finds (hfile : m.filename = file) (name : String) (description : Option String) :
    (readOneOf name description m).Finds file (fun _ => True)
      (.references fun raw => (∃ c ∈ m.node.itemsAt "oneOf", c.textAt? "$ref" = some raw) ∨
        ∃ d, m.node.value? "discriminator" = some d ∧ ∃ v ∈ d.valuesAt "mapping", v.scalarText = some raw) := by
  unfold readOneOf
  refine .reading fun _ => Finds.sequence (fun _ l hl => .required_missing hl) fun members l hc hcfile hl =>
    .required hl ?_
  refine Finds.mappings fun ms hms hfiles => ?_
  have hmembers : (ms.mapM fun member : Mapping =>
      if member.containsKey "$ref" then readReference member
      else throw (member.unsupported
        ("inline oneOf member of '" ++ name ++ "' (declare it under components.schemas)"))).Finds file
      (fun _ => True) (.references fun raw => ∃ c ∈ m.node.itemsAt "oneOf", c.textAt? "$ref" = some raw) := by
    rw [Node.itemsAt_of_value? hc, ← hms]
    refine (Finds.mapM (F := fun c => .references fun raw => c.node.textAt? "$ref" = some raw) fun c hc => ?_).congr ?_
    · split
      next => exact readReference_finds ((hfiles c hc).trans (hcfile.trans hfile))
      next => exact .throw
    · rw [Findings.each_references]
      exact Findings.references_congr fun raw => by simp
  -- members come first, then the targets of the discriminator
  rw [← Findings.references_and]
  refine hmembers.bind fun members _ => Finds.mapping (fun hnone l hl => ?_) fun d l hd hdfile hl => ?_
  · rw [hl, hnone]
    exact (Finds.pure trivial).congr (Findings.references_congr fun raw => by simp)
  · rw [hl, hd]
    refine ((readDiscriminator_finds (hdfile.trans hfile)).last fun discriminator _ => .pure trivial).congr ?_
    exact Findings.references_congr fun raw => by simp

/-- The kind of a named schema tells where its references are written. -/
theorem modelRefers_iff {n : Node} {raw : String} : n.ModelRefers raw ↔
    (n.kindKey? = some "properties" ∧ ∃ p ∈ n.valuesAt "properties", p.SchemaRefers raw) ∨
    (n.kindKey? = some "allOf" ∧ ∃ c ∈ n.itemsAt "allOf", c.textAt? "$ref" = some raw ∨
      c.has "$ref" = false ∧ ∃ p ∈ c.valuesAt "properties", p.SchemaRefers raw) ∨
    (n.kindKey? = some "oneOf" ∧ ((∃ c ∈ n.itemsAt "oneOf", c.textAt? "$ref" = some raw) ∨
      ∃ d, n.value? "discriminator" = some d ∧ ∃ v ∈ d.valuesAt "mapping", v.scalarText = some raw)) ∨
    n.kindKey? = none ∧ ∃ c, n.value? "items" = some c ∧ c.SchemaRefers raw := by
  constructor
  · intro h
    cases h with
    | property hkind hp h => exact .inl ⟨hkind, _, hp, h⟩
    | super hkind hm h => exact .inr (.inl ⟨hkind, _, hm, .inl h⟩)
    | inline hkind hm hplain hp h => exact .inr (.inl ⟨hkind, _, hm, .inr ⟨hplain, _, hp, h⟩⟩)
    | option hkind hm h => exact .inr (.inr (.inl ⟨hkind, .inl ⟨_, hm, h⟩⟩))
    | target hkind hd hv h => exact .inr (.inr (.inl ⟨hkind, .inr ⟨_, hd, _, hv, h⟩⟩))
    | item hkind hi h => exact .inr (.inr (.inr ⟨hkind, _, hi, h⟩))
  · rintro (⟨hkind, p, hp, h⟩ | ⟨hkind, c, hc, h | ⟨hplain, p, hp, h⟩⟩ |
      ⟨hkind, ⟨c, hc, h⟩ | ⟨d, hd, v, hv, h⟩⟩ | ⟨hkind, c, hc, h⟩)
    · exact .property hkind hp h
    · exact .super hkind hc h
    · exact .inline hkind hc hplain hp h
    · exact .option hkind hc h
    · exact .target hkind hd hv h
    · exact .item hkind hc h

/-- **Reading a named schema finds the references that are written in it.** -/
theorem readModel_finds (hfile : m.filename = file) (name : String) :
    (readModel name m).Finds file (fun _ => True) (.references m.node.ModelRefers) := by
  have hkey : m.node.kindKey? = ["properties", "enum", "allOf", "oneOf"].find? m.containsKey := rfl
  unfold readModel
  -- a branch is taken where none of the keys before its own is there, and so its key tells the kind
  refine .reading fun _ => .reading fun described => ?_
  split
  next hproperties =>
    have hkind : m.node.kindKey? = some "properties" := by simp [hkey, hproperties]
    refine ((readGeneric_finds hfile name _).map fun _ _ => trivial).congr ?_
    rw [Findings.each_references]
    exact Findings.references_congr fun raw => by simp [modelRefers_iff, hkind]
  next hproperties =>
  split
  next henum =>
    have hkind : m.node.kindKey? = some "enum" := by simp [hkey, hproperties, henum]
    refine ((readEnum_finds name _ m).map fun _ _ => trivial).congr ?_
    rw [← Findings.references_false]
    exact Findings.references_congr fun raw => by simp [modelRefers_iff, hkind]
  next henum =>
  split
  next hallOf =>
    have hkind : m.node.kindKey? = some "allOf" := by simp [hkey, hproperties, henum, hallOf]
    refine ((readAllOf_finds hfile name _).map fun _ _ => trivial).congr ?_
    unfold memberFindings
    rw [Findings.each_references]
    exact Findings.references_congr fun raw => by simp [modelRefers_iff, hkind]
  next hallOf =>
  split
  next honeOf =>
    have hkind : m.node.kindKey? = some "oneOf" := by simp [hkey, hproperties, henum, hallOf, honeOf]
    refine ((readOneOf_finds hfile name _).map fun _ _ => trivial).congr ?_
    exact Findings.references_congr fun raw => by simp [modelRefers_iff, hkind]
  next honeOf =>
  have hkind : m.node.kindKey? = none := by simp [hkey, hproperties, henum, hallOf, honeOf]
  refine .reading fun typeName => ?_
  split
  next =>
    refine ((readArray_finds (readSchemaTo_refers _) hfile).last fun array _ => .pure trivial).congr ?_
    rw [Findings.each_references]
    exact Findings.references_congr fun raw => by simp [modelRefers_iff, hkind]
  next => exact .throw

theorem declareModel_finds (hfile : m.filename = file) (name : String) :
    (declareModel name m).Finds file (fun _ => True) ((Findings.references m.node.ModelRefers).and (.schema name)) := by
  unfold declareModel
  refine ((readModel_finds hfile name).gives (readModel_name name m)).bind fun model hmodel => ?_
  rw [hfile, ← hmodel.2]
  refine .report fun _ => .of_yields (.update fun s t hadd => ⟨.model file model, hadd, trivial, fun known => ?_⟩)
  exact .of_model model

/-- **Reading named schemas finds what is written in each of them, and declares models of their names.** -/
theorem readModels_finds (hfile : m.filename = file) :
    (readModels m).Finds file (fun _ => True)
      (.each m.node.members fun e => (Findings.references e.2.ModelRefers).and (.schema e.1)) := by
  unfold readModels
  refine Finds.mappingEntries fun entries hentries hfiles => ?_
  rw [← hentries, Findings.each_map]
  exact Finds.forM fun e he => declareModel_finds ((hfiles e he).trans hfile) e.1

end OpenApi.Build
