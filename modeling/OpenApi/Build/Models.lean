/-
  OpenApi.Build.Models — reading named schemas.

  The kind of a model is that of the first of these keys that it has: properties, enum, allOf, oneOf; without
  any of them it must be an array. What any member of an allOf requires is required of the whole model:
  where it is declared inline, the property is required there, and otherwise it is inherited and required.
-/
import OpenApi.Build.Schemas

namespace OpenApi.Build

/-! ## §1. AllOf models. -/

/-- Keys that say nothing about the properties of a member. -/
def inertKeys : List String := ["type", "title", "description"]

/-- The texts with more at the end, those that are there already left out. -/
def withNew (texts more : List String) : List String :=
  more.foldl (fun texts t => if texts.contains t then texts else texts ++ [t]) texts

/-- Reads a member of an allOf into the model. -/
def readMember (model : AllOfModel) (m : Mapping) : Building AllOfModel := do
  if m.containsKey "$ref" then
    let r ← readReference m
    pure { model with supers := model.supers ++ [r] }
  else if m.containsKey "properties" then
    m.ignore ["type", "title", "description", "additionalProperties"]
    let object ← readObject (readSchemaTo m.node.height) (.ofModel model.name) m
    let required ← readTexts m "required"
    -- what is required here and not declared here must come from another member
    let elsewhere := required.filter fun r => (Keyed.find? Property.name r object).isNone
    pure { model with
      required := withNew model.required elsewhere
      inlineSupers := model.inlineSupers ++ [object] }
  else if m.containsKey "required" then
    m.ignore inertKeys
    let required ← readTexts m "required"
    pure { model with required := withNew model.required required }
  -- a member that says nothing about properties does no harm
  else if m.keys.all inertKeys.contains then
    m.ignore inertKeys
    Building.report (.ignoredMember model.name m.location)
    pure model
  else
    throw (m.unsupported
      ("allOf member of '" ++ model.name ++ "' (expected $ref, properties or required)"))

/-- Makes the inline properties required that the model requires. -/
def markRequired (model : AllOfModel) : AllOfModel :=
  { model with
    inlineSupers := model.inlineSupers.map fun object =>
      object.map fun p => { p with required := p.required || model.required.contains p.name } }

/-- Reads an allOf model. -/
def readAllOf (name : String) (description : Option String) (m : Mapping) : Building AllOfModel := do
  m.ignore ["type"]
  let required ← readTexts m "required"
  let members ← (← (← m.sequence "allOf").required).mappings
  let model ← members.foldlM readMember ⟨name, description, required, [], []⟩
  pure (markRequired model)

/-! ## §2. OneOf models. -/

/-- Reads one value of a discriminator mapping. -/
def readTarget (m : Mapping) (value : String) : Building (String × SchemaRef) := do
  let raw ← (← m.string value).required
  match SchemaRef.parse raw m.filename with
  | .error _ => throw (m.invalidReferenceAt value raw)
  | .ok r =>
    Building.addReference r
    pure (value, r)

/-- Reads a discriminator. -/
def readDiscriminator (m : Mapping) : Building Discriminator := do
  let propertyName := (← m.string "propertyName").optional
  match (← m.mapping "mapping").optional with
  | none => pure ⟨propertyName, []⟩
  | some mapping =>
    let entries ← mapping.keys.mapM (readTarget mapping)
    pure ⟨propertyName, Keyed.putAll Prod.fst [] entries⟩

/-- Reads a oneOf model. -/
def readOneOf (name : String) (description : Option String) (m : Mapping) : Building OneOfModel := do
  m.ignore ["type"]
  let members ← (← (← m.sequence "oneOf").required).mappings
  let members ← members.mapM fun member =>
    if member.containsKey "$ref" then readReference member
    else
      throw (member.unsupported
        ("inline oneOf member of '" ++ name ++ "' (declare it under components.schemas)"))
  match (← m.mapping "discriminator").optional with
  | none => pure ⟨name, description, members, ⟨none, []⟩⟩
  | some d => do
    let discriminator ← readDiscriminator d
    pure ⟨name, description, members, discriminator⟩

/-! ## §3. Models. -/

/-- Reads a generic model. -/
def readGeneric (name : String) (description : Option String) (m : Mapping) :
    Building GenericModel := do
  m.ignore ["type", "additionalProperties"]
  let required ← readTexts m "required"
  let properties ← readProperties (readSchemaTo m.node.height) (.ofModel name) required m
  pure { properties.foldl GenericModel.insert (.empty name) with description }

/-- Reads an enumeration. -/
def readEnum (name : String) (description : Option String) (m : Mapping) : Building EnumModel := do
  let values ← (← (← m.sequence "enum").required).texts
  if values.isEmpty then throw (m.invalidValueAt "enum" "enum must list at least one value")
  else
    let valueType := (← m.string "type").getD "string"
    pure ⟨name, description, valueType, values⟩

/-- Reads the named schema of a mapping. -/
def readModel (name : String) (m : Mapping) : Building Model := do
  m.ignore ["title", "example", "examples", "externalDocs", "xml", "deprecated"]
  let description := (← m.string "description").optional
  if m.containsKey "properties" then .generic <$> readGeneric name description m
  else if m.containsKey "enum" then .enumeration <$> readEnum name description m
  else if m.containsKey "allOf" then .allOf <$> readAllOf name description m
  else if m.containsKey "oneOf" then .oneOf <$> readOneOf name description m
  else if (← m.string "type").optional = some "array" then do
    let array ← readArray (readSchemaTo m.node.height (.ofModel name)) m
    pure (.array ⟨name, description, array⟩)
  else
    throw (m.unsupported
      ("schema '" ++ name ++ "' (expected properties, enum, allOf, oneOf or type: array)"))

/-- Reads a named schema into the spec. -/
def declareModel (name : String) (m : Mapping) : Building Unit := do
  let model ← readModel name m
  Building.report (.builtModel name model.kind m.filename)
  Building.update fun spec => spec.addModel m.filename model

/-- Reads all named schemas of a document into the spec. -/
def readModels (schemas : Mapping) : Building Unit := do
  (← schemas.mappingEntries).forM fun entry => declareModel entry.1 entry.2

end OpenApi.Build
