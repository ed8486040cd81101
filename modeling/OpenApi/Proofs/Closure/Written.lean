/-
  OpenApi.Proofs.Closure.Written — what is written in a document.

  The tree of a document tells which references are written in the schemas that a build reads, which schemas are
  declared, and which objects that are declared in place become models. Nothing here depends on how a build goes
  about it: no marks, no session and no errors.
-/
import OpenApi.Build.Operations
import OpenApi.Proofs.Document.Trimming

namespace OpenApi

/-! ## §1. Values. -/

namespace Node

/-- The value under a key; null counts as absent. -/
def value? (n : Node) (key : String) : Option Node := (n.get? key).filter fun c => c.kind ≠ .null

/-- The text of the scalar under a key. -/
def textAt? (n : Node) (key : String) : Option String := (n.value? key).bind scalarText

/-- Is the key there, whatever its value? -/
def has (n : Node) (key : String) : Bool := (n.get? key).isSome

/-- The keys of a mapping with the values that lookups find under them. -/
def members (n : Node) : List (String × Node) := n.keys.filterMap fun key => (n.get? key).map fun c => (key, c)

/-- The keys and values of the mapping under a key. -/
def membersAt (n : Node) (key : String) : List (String × Node) := ((n.value? key).map members).getD []

/-- The values of the mapping under a key. -/
def valuesAt (n : Node) (key : String) : List Node := (n.membersAt key).map (·.2)

/-- The items of the sequence under a key. -/
def itemsAt (n : Node) (key : String) : List Node := ((n.value? key).map items).getD []

/-! ## §2. References in schemas. -/

/-- Is it a map? It is one if a schema of its values is given, or values of any shape are allowed. -/
def isMap (n : Node) : Bool :=
  (n.value? "additionalProperties").any fun c => c.kind = .mapping || c.scalarText = some "true"

/-- The schema of the values of a map; one without rules says nothing. -/
def mapValues (n : Node) : List Node :=
  ((n.value? "additionalProperties").filter fun c => c.kind = .mapping && !c.keys.isEmpty).toList

/-- The schema of the items of an array. -/
def arrayItems (n : Node) : List Node :=
  if n.textAt? "type" = some "array" then (n.value? "items").toList else []

/-- The schemas that a schema without a name is built of: an enumeration has none, an object those of its
properties, a map that of its values, an array that of its items. -/
def parts (n : Node) : List Node :=
  if (n.value? "enum").isSome then []
  else if n.has "properties" then n.valuesAt "properties"
  else if n.isMap then n.mapValues
  else n.arrayItems

/-- The reference is written in the schema, or in a schema that it is built of. -/
inductive SchemaRefers : Node → String → Prop
  | here {n : Node} {raw : String} (h : n.textAt? "$ref" = some raw) : SchemaRefers n raw
  | inside {n part : Node} {raw : String} (hplain : n.has "$ref" = false) (hpart : part ∈ n.parts)
      (h : SchemaRefers part raw) : SchemaRefers n raw

/-- The first of the keys that tell the kind of a named schema. -/
def kindKey? (n : Node) : Option String := ["properties", "enum", "allOf", "oneOf"].find? n.has

/-- The reference is written in the named schema: in a property, as a member of an allOf or in a property declared
in one, as a member of a oneOf or a value of its discriminator, or in the items of an array. -/
inductive ModelRefers : Node → String → Prop
  | property {n p : Node} {raw : String} (hkind : n.kindKey? = some "properties")
      (hp : p ∈ n.valuesAt "properties") (h : p.SchemaRefers raw) : ModelRefers n raw
  | super {n m : Node} {raw : String} (hkind : n.kindKey? = some "allOf") (hm : m ∈ n.itemsAt "allOf")
      (h : m.textAt? "$ref" = some raw) : ModelRefers n raw
  | inline {n m p : Node} {raw : String} (hkind : n.kindKey? = some "allOf") (hm : m ∈ n.itemsAt "allOf")
      (hplain : m.has "$ref" = false) (hp : p ∈ m.valuesAt "properties") (h : p.SchemaRefers raw) :
      ModelRefers n raw
  | option {n m : Node} {raw : String} (hkind : n.kindKey? = some "oneOf") (hm : m ∈ n.itemsAt "oneOf")
      (h : m.textAt? "$ref" = some raw) : ModelRefers n raw
  | target {n d v : Node} {raw : String} (hkind : n.kindKey? = some "oneOf")
      (hd : n.value? "discriminator" = some d) (hv : v ∈ d.valuesAt "mapping") (h : v.scalarText = some raw) :
      ModelRefers n raw
  | item {n i : Node} {raw : String} (hkind : n.kindKey? = none) (hi : n.value? "items" = some i)
      (h : i.SchemaRefers raw) : ModelRefers n raw

/-! ## §3. Operations. -/

/-- The schemas of parameters. -/
def parameterSchemas (n : Node) : List Node := (n.itemsAt "parameters").filterMap fun p => p.value? "schema"

/-- The schemas of the contents of a body. -/
def contentSchemas (n : Node) : List Node := (n.valuesAt "content").filterMap fun media => media.value? "schema"

/-- The schemas of an operation. -/
def operationSchemas (n : Node) : List Node :=
  n.parameterSchemas ++ ((n.value? "requestBody").toList ++ n.valuesAt "responses").flatMap contentSchemas

/-- The operations of a path item, under their methods. -/
def operations (item : Node) : List (String × Node) := item.members.filter fun e => !Build.isItemKey e.1

/-- The schemas of all operations of a document. -/
def pathSchemas (root : Node) : List Node :=
  (root.valuesAt "paths").flatMap fun item =>
    item.parameterSchemas ++ item.operations.flatMap fun e => e.2.operationSchemas

/-- Does an object with properties of its own stand here? -/
def isObject (n : Node) : Bool := !n.has "$ref" && (n.value? "enum").isNone && n.has "properties"

/-- Does the content of a type become a model? An object does, unless it is a form. -/
def becomesModel (declaredType : String) (media : Node) : Bool :=
  (media.value? "schema").any isObject &&
    !(startsWith formType (essence declaredType) || startsWith multipartType (essence declaredType))

/-- The model that the contents of a body become, named for each one that does. -/
def bodyModels (modelName : String) (body : Node) : List String :=
  (body.membersAt "content").flatMap fun e => if becomesModel e.1 e.2 then [modelName] else []

/-- The names of the models that the bodies of an operation become. -/
def operationModels (path : String) (method : HttpMethod) (op : Node) : List String :=
  let typeName := Text.pascalCase ((op.textAt? "operationId").getD (Operation.derivedId path method))
  (op.value? "requestBody").toList.flatMap (bodyModels (typeName ++ "Request")) ++
    (op.membersAt "responses").flatMap fun e =>
      (StatusCode.parse e.1).toList.flatMap fun status =>
        bodyModels (typeName ++ Text.pascalCase status.text ++ "Response") e.2

/-- The names of the models that the bodies of all operations of a document become. -/
def promotedNames (root : Node) : List String :=
  (root.membersAt "paths").flatMap fun item =>
    item.2.operations.flatMap fun e =>
      (Spelled.ofText? e.1 : Option HttpMethod).toList.flatMap fun method => operationModels item.1 method e.2

/-! ## §4. Documents. -/

/-- The schemas that a document declares, with their names. -/
def declaredSchemas (root : Node) : List (String × Node) :=
  ((root.value? "components").map fun c => c.membersAt "schemas").getD []

/-- The names of the schemas that a document declares. -/
def schemaNames (root : Node) : List String := root.declaredSchemas.map (·.1)

/-- The reference is written in a schema that the document declares. -/
def SchemasRefer (root : Node) (raw : String) : Prop := ∃ e ∈ root.declaredSchemas, e.2.ModelRefers raw

/-- The reference is written in a schema of an operation. -/
def PathsRefer (root : Node) (raw : String) : Prop := ∃ n ∈ root.pathSchemas, n.SchemaRefers raw

/-! ## §5. Lookups. -/

variable {n c : Node} {key : String}

theorem value?_eq_some : n.value? key = some c ↔ n.get? key = some c ∧ c.kind ≠ .null := by
  simp [value?, Option.filter_eq_some_iff]

theorem value?_eq_none : n.value? key = none ↔ ∀ c, n.get? key = some c → c.kind = .null := by
  simp [value?, Option.filter_eq_none_iff]

theorem has_of_value? (h : n.value? key = some c) : n.has key = true := by
  unfold has
  rw [(value?_eq_some.1 h).1]
  rfl

theorem membersAt_of_value? (h : n.value? key = some c) : n.membersAt key = c.members := by
  unfold membersAt
  rw [h]
  rfl

theorem membersAt_of_none (h : n.value? key = none) : n.membersAt key = [] := by
  unfold membersAt
  rw [h]
  rfl

theorem valuesAt_of_none (h : n.value? key = none) : n.valuesAt key = [] := by
  unfold valuesAt
  rw [membersAt_of_none h]
  rfl

theorem itemsAt_of_value? (h : n.value? key = some c) : n.itemsAt key = c.items := by
  unfold itemsAt
  rw [h]
  rfl

theorem itemsAt_of_none (h : n.value? key = none) : n.itemsAt key = [] := by
  unfold itemsAt
  rw [h]
  rfl

theorem value?_of_not_has (h : n.has key = false) : n.value? key = none := by
  refine value?_eq_none.2 fun c hc => ?_
  unfold has at h
  rw [hc] at h
  exact absurd h nofun

theorem textAt?_of_not_has (h : n.has key = false) : n.textAt? key = none := by
  unfold textAt?
  rw [value?_of_not_has h]
  rfl

theorem valuesAt_of_value? (h : n.value? key = some c) : n.valuesAt key = c.members.map (·.2) := by
  unfold valuesAt
  rw [membersAt_of_value? h]

theorem kind_ne_null_of_scalarText {text : String} (h : n.scalarText = some text) : n.kind ≠ .null := by
  induction n using Node.induction with
  | tagged tag n ih => exact ih h
  | null => exact absurd h nofun
  | bool | number | string | sequence | mapping => exact nofun

theorem mem_members {e : String × Node} : e ∈ n.members ↔ e.1 ∈ n.keys ∧ n.get? e.1 = some e.2 := by
  unfold members
  rw [List.mem_filterMap]
  constructor
  · rintro ⟨key, hkey, hfound⟩
    obtain ⟨c, hc, rfl⟩ := Option.map_eq_some_iff.1 hfound
    exact ⟨hkey, hc⟩
  · rintro ⟨hkey, hc⟩
    exact ⟨e.1, hkey, by rw [hc, Option.map_some]⟩

/-- The texts under the keys of a mapping are those of its values. -/
theorem exists_textAt? {text : String} :
    (∃ key ∈ n.keys, n.textAt? key = some text) ↔ ∃ v ∈ n.members.map (·.2), v.scalarText = some text := by
  constructor
  · rintro ⟨key, hkey, htext⟩
    obtain ⟨v, hv, hscalar⟩ := Option.bind_eq_some_iff.1 htext
    have hmember : (key, v) ∈ n.members := mem_members.2 ⟨hkey, (value?_eq_some.1 hv).1⟩
    exact ⟨v, List.mem_map_of_mem hmember, hscalar⟩
  · rintro ⟨v, hv, hscalar⟩
    obtain ⟨⟨key, v⟩, hmember, rfl⟩ := List.mem_map.1 hv
    obtain ⟨hkey, hget⟩ := mem_members.1 hmember
    have hvalue : n.value? key = some v := value?_eq_some.2 ⟨hget, kind_ne_null_of_scalarText hscalar⟩
    exact ⟨key, hkey, Option.bind_eq_some_iff.2 ⟨v, hvalue, hscalar⟩⟩

/-- A boolean is the scalar with its text. -/
theorem scalarText_of_boolean? {b : Bool} (h : n.boolean? = some b) : n.scalarText = some (boolText b) := by
  induction n using Node.induction with
  | bool b' =>
    rw [boolean?, Option.some.injEq] at h
    rw [scalarText, h]
  | tagged tag n ih => exact ih h
  | null | number | string | sequence | mapping => simp [boolean?] at h

/-! ## §6. Parts of schemas. -/

theorem isMap_of_none (h : n.value? "additionalProperties" = none) : n.isMap = false := by
  simp [isMap, h]

theorem isMap_of_mapping (h : n.value? "additionalProperties" = some c) (hkind : c.kind = .mapping) :
    n.isMap = true := by
  simp [isMap, h, hkind]

theorem isMap_of_other (h : n.value? "additionalProperties" = some c) (hkind : c.kind ≠ .mapping) :
    n.isMap = decide (c.scalarText = some "true") := by
  simp [isMap, h, hkind]

theorem mapValues_of_mapping (h : n.value? "additionalProperties" = some c) (hkind : c.kind = .mapping) :
    n.mapValues = if c.keys.isEmpty then [] else [c] := by
  unfold mapValues
  rw [h]
  cases hkeys : c.keys.isEmpty with
  | true => simp [hkind, List.isEmpty_iff.1 hkeys]
  | false => simp [hkind, hkeys]

theorem mapValues_of_other (h : n.value? "additionalProperties" = some c) (hkind : c.kind ≠ .mapping) :
    n.mapValues = [] := by
  simp [mapValues, h, hkind]

theorem mapValues_of_not_isMap (h : n.isMap = false) : n.mapValues = [] := by
  cases hc : n.value? "additionalProperties" with
  | none => simp [mapValues, hc]
  | some c =>
    refine mapValues_of_other hc fun hkind => ?_
    rw [isMap_of_mapping hc hkind] at h
    exact absurd h nofun

theorem arrayItems_of_array (h : n.textAt? "type" = some "array") : n.arrayItems = (n.value? "items").toList := by
  simp [arrayItems, h]

theorem arrayItems_of_other {typeName : String} (h : n.textAt? "type" = some typeName) (hother : typeName ≠ "array") :
    n.arrayItems = [] := by
  simp [arrayItems, h, hother]

theorem parts_of_enum (h : n.value? "enum" = some c) : n.parts = [] := by
  simp [parts, h]

theorem parts_of_properties (henum : n.value? "enum" = none) (h : n.has "properties" = true) :
    n.parts = n.valuesAt "properties" := by
  simp [parts, henum, h]

/-- Without an enumeration and properties, the values of a map are the parts, or else the items of an array. -/
theorem parts_of_none (henum : n.value? "enum" = none) (h : n.has "properties" = false) :
    n.parts = if n.isMap then n.mapValues else n.arrayItems := by
  simp [parts, henum, h]

end Node

end OpenApi
