/-
  OpenApi.Schema.Basic — schemas without a name.

  A schema is the shape of a property, a parameter, an item or a body. Schemas refer to named models by
  reference only, so a schema is a finite tree. The properties of an object have distinct names and keep
  their order, which does not count for equality.
-/
import OpenApi.Json.Value
import OpenApi.Keyed
import OpenApi.Reference
import OpenApi.Text.Pascal

namespace OpenApi

/-! ## §1. Schemas and properties. -/

/-- A primitive type with its format. -/
structure Primitive where
  typeName : String
  format : Option String
  deriving DecidableEq, Repr

/-- An enumeration that is declared in place, with the model and property it is declared for. -/
structure EmbeddedEnum where
  /-- The primitive type of the values. -/
  valueType : String
  values : List String
  description : Option String
  declaredModel : Option String
  declaredProperty : Option String
  deriving DecidableEq, Repr

mutual

/-- A schema. -/
inductive Schema
  | primitive (type : Primitive)
  | array (array : ArraySchema)
  /-- A map from names to values. -/
  | record (values : Schema)
  /-- A single value. -/
  | constant (value : String)
  | embeddedEnum (enumeration : EmbeddedEnum)
  /-- Properties without a model name. -/
  | object (properties : List Property)
  | ref (reference : SchemaRef)

/-- An array and the bounds of its length. -/
structure ArraySchema where
  items : Schema
  uniqueItems : Bool
  minItems : Option Nat
  maxItems : Option Nat

/-- A named member of a model or object. -/
structure Property where
  name : String
  description : Option String
  /-- An example value. -/
  sample : Option Json
  required : Bool
  readOnly : Bool
  writeOnly : Bool
  nullable : Bool
  /-- The model that declares the property. -/
  owner : Option String
  schema : Schema

end

/-! ## §2. Facts about schemas. -/

/-- Is it a date, with or without a time? -/
def Primitive.isDate (p : Primitive) : Bool :=
  p.typeName = "string" && (p.format = some "date" || p.format = some "date-time")

/-- The name of the enumeration: that of its model and property, or else its values. -/
def EmbeddedEnum.typeName (e : EmbeddedEnum) : String :=
  match e.declaredModel, e.declaredProperty with
  | some model, some property => Text.pascalCase model ++ Text.pascalCase property ++ "Enum"
  | _, _ => String.intercalate " | " (e.values.map fun v => "\"" ++ v ++ "\"")

/-- The greatest length of an array that counts as a tuple. -/
def maxTupleLength : Nat := 8

/-- The length of an array that is a tuple: its bounds agree and are small. -/
def ArraySchema.tupleLength (a : ArraySchema) : Option Nat :=
  match a.minItems, a.maxItems with
  | some least, some greatest =>
    if least = greatest && greatest ≤ maxTupleLength then some greatest else none
  | _, _ => none

/-- The property with another required flag. -/
def Property.withRequired (p : Property) (required : Bool) : Property := { p with required }

namespace Schema

/-- The reference, if the schema is one. -/
def reference? : Schema → Option SchemaRef
  | ref r => some r
  | _ => none

/-- Is it a date, or an array of dates? -/
def isDate : Schema → Bool
  | primitive p => p.isDate
  | array ⟨items, _, _, _⟩ => items.isDate
  | _ => false

end Schema

mutual

/-- The references in a schema, none of which is followed. -/
def Schema.references : Schema → List SchemaRef
  | .ref r => [r]
  | .array ⟨items, _, _, _⟩ => items.references
  | .record values => values.references
  | .object properties => referencesOfProperties properties
  | _ => []

/-- The references in the schemas of properties. -/
def referencesOfProperties : List Property → List SchemaRef
  | [] => []
  | ⟨_, _, _, _, _, _, _, _, schema⟩ :: rest => schema.references ++ referencesOfProperties rest

end

/-! ## §3. Equality. -/

/-- Equality of optional JSON values. -/
def sameExample : Option Json → Option Json → Bool
  | some a, some b => a.same b
  | none, none => true
  | _, _ => false

mutual

/-- Equality of schemas, whatever the order of properties and the spelling of references. -/
def Schema.same : Schema → Schema → Bool
  | .primitive a, .primitive b => a = b
  | .array ⟨items, unique, least, greatest⟩, .array b =>
    items.same b.items && unique = b.uniqueItems && least = b.minItems && greatest = b.maxItems
  | .record a, .record b => a.same b
  | .constant a, .constant b => a = b
  | .embeddedEnum a, .embeddedEnum b => a = b
  | .object a, .object b => a.length = b.length && allSame a b
  | .ref a, .ref b => SchemaRef.same a b
  | _, _ => false

/-- Does every property have an equal one in another list? -/
def allSame : List Property → List Property → Bool
  | [], _ => true
  | ⟨name, description, e, required, readOnly, writeOnly, nullable, owner, schema⟩ :: rest, other =>
    (match Keyed.find? Property.name name other with
      | some q =>
        description = q.description && sameExample e q.sample && required = q.required &&
          readOnly = q.readOnly && writeOnly = q.writeOnly && nullable = q.nullable &&
          owner = q.owner && schema.same q.schema
      | none => false) && allSame rest other

end

/-- Equality of lists of properties with distinct names, whatever their order. -/
def sameProperties (a b : List Property) : Bool := a.length = b.length && allSame a b

end OpenApi
