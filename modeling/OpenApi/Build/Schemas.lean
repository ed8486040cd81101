/-
  OpenApi.Build.Schemas — reading schemas without a name.

  The shapes of a schema are tried in order: a reference, an enumeration, properties, a map, an array, a
  primitive type. Keywords that do not change the shape are passed over. The height of the node bounds how
  deep schemas are nested.
-/
import OpenApi.Build.Session

namespace OpenApi.Build

/-! ## §1. Keywords. -/

/-- Keywords that never change the shape of a schema. -/
def annotations : List String :=
  ["title", "description", "default", "example", "examples", "deprecated", "externalDocs", "xml",
   "pattern", "minimum", "maximum", "exclusiveMinimum", "exclusiveMaximum", "multipleOf",
   "minLength", "maxLength", "minProperties", "maxProperties", "readOnly", "writeOnly", "nullable"]

/-- Keywords that compose schemas, which only named models may. -/
def compositions : List String := ["allOf", "oneOf", "anyOf", "not"]

/-- Where a schema is declared; enumerations are named after it. -/
structure Owner where
  model : Option String
  property : Option String
  deriving DecidableEq, Repr

/-- A place on a model. -/
def Owner.ofModel (model : String) : Owner := ⟨some model, none⟩

/-- A property of the same model. -/
def Owner.at (o : Owner) (property : String) : Owner := { o with property := some property }

/-! ## §2. References and lists. -/

/-- Reads the reference of a schema and records it. Descriptions beside it mean nothing. -/
def readReference (m : Mapping) : Building SchemaRef := do
  let raw ← (← m.string "$ref").required
  match SchemaRef.parse raw m.filename with
  | .error .malformed => throw (m.invalidReferenceAt "$ref" raw)
  | .error .notASchema =>
    throw (m.unsupportedAt "$ref"
      ("reference '" ++ raw ++ "' (only '" ++ SchemaRef.anchor ++ "<Name>' targets are modeled)"))
  | .ok r =>
    -- any other key beside a reference stays unread
    m.ignore ["description", "summary"]
    Building.addReference r
    pure r

/-- The texts of a list, which is empty when absent. -/
def readTexts (m : Mapping) (key : String) : Building (List String) := do
  match (← m.sequence key).optional with
  | some texts => texts.texts
  | none => pure []

/-- Reads an enumeration: one value is a constant. -/
def readEnumeration (m : Mapping) (owner : Owner) (values : Sequence) : Building Schema := do
  let values ← values.texts
  let valueType := (← m.string "type").getD "string"
  match values with
  | [] => throw (m.invalidValueAt "enum" "enum must list at least one value")
  | [value] => pure (.constant value)
  | _ =>
    let description := (← m.string "description").optional
    pure (.embeddedEnum ⟨valueType, values, description, owner.model, owner.property⟩)

/-! ## §3. Schemas. -/

/-- Values of any shape. -/
def freeForm : Schema := .primitive ⟨"object", none⟩

/-- The values of a map: `build` reads their schema. A map without rules has values of any shape, and
`false` makes no map. -/
def readMapValues (build : Mapping → Building Schema) (m : Mapping) : Building (Option Schema) := do
  match m.kindOf "additionalProperties" with
  | some .mapping =>
    let values ← (← m.mapping "additionalProperties").required
    if values.isEmpty then pure (some freeForm) else some <$> build values
  | none | some .null => pure none
  | some _ =>
    let allowed := (← m.boolean "additionalProperties").getD false
    pure (if allowed then some freeForm else none)

/-- Reads an array: `build` reads the schema of its items. -/
def readArray (build : Mapping → Building Schema) (m : Mapping) : Building ArraySchema := do
  let items ← (← m.mapping "items").required
  let items ← build items
  let uniqueItems := (← m.boolean "uniqueItems").getD false
  let minItems := (← m.number "minItems").optional
  let maxItems := (← m.number "maxItems").optional
  pure ⟨items, uniqueItems, minItems, maxItems⟩

/-- Reads a property: `build` reads its schema. -/
def readProperty (build : Mapping → Building Schema) (owner : Owner) (name : String)
    (required : Bool) (m : Mapping) : Building Property := do
  let description := (← m.string "description").optional
  let sample := (← m.value "example").optional
  let readOnly := (← m.boolean "readOnly").getD false
  let writeOnly := (← m.boolean "writeOnly").getD false
  let nullable := (← m.boolean "nullable").getD false
  let schema ← build m
  pure ⟨name, description, sample, required, readOnly, writeOnly, nullable, owner.model, schema⟩

/-- Reads the properties of an object in order: `build` reads the schema of each. -/
def readProperties (build : Owner → Mapping → Building Schema) (owner : Owner)
    (required : List String) (m : Mapping) : Building (List Property) := do
  match (← m.mapping "properties").optional with
  | none => pure []
  | some properties =>
    (← properties.mappingEntries).mapM fun (name, property) =>
      readProperty (build (owner.at name)) owner name (required.contains name) property

/-- Reads an object without a name. -/
def readObject (build : Owner → Mapping → Building Schema) (owner : Owner) (m : Mapping) :
    Building (List Property) := do
  let required ← readTexts m "required"
  let properties ← readProperties build owner required m
  pure (properties.foldl putProperty [])

/-- Reads a schema with the part of the tree below it of a limited height. -/
def readSchemaTo : (height : Nat) → Owner → Mapping → Building Schema
  | 0, _, m => throw (m.unsupported "schema nesting")
  | height + 1, owner, m => do
    let build := readSchemaTo height
    if m.containsKey "$ref" then .ref <$> readReference m
    else
      match compositions.find? m.containsKey with
      | some keyword =>
        throw (m.unsupportedAt keyword
          ("inline " ++ keyword ++ " (declare the schema under components.schemas)"))
      | none =>
        -- passing an annotation over does not keep it from being read as well
        m.ignore annotations
        match (← m.sequence "enum").optional with
        | some values => readEnumeration m owner values
        | none =>
          if m.containsKey "properties" then
            m.ignore ["type", "additionalProperties"]
            .object <$> readObject build owner m
          else
            match ← readMapValues (build owner) m with
            | some values =>
              m.ignore ["type"]
              pure (.record values)
            | none =>
              let typeName ← (← m.string "type").required
              if typeName = "array" then .array <$> readArray (build owner) m
              else
                let format := (← m.string "format").optional
                pure (.primitive ⟨typeName, format⟩)

/-- Reads a schema that is declared on `owner`. -/
def readSchema (owner : Owner) (m : Mapping) : Building Schema :=
  readSchemaTo m.node.height owner m

end OpenApi.Build
