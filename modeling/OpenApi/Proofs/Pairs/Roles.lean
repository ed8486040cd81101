/-
  OpenApi.Proofs.Pairs.Roles — what the nodes of a description are read as.

  What a reader sees of a mapping depends on what it reads the mapping as. Most mappings are asked for keys by name; of
  tables every key counts; the presence of some keys decides what a mapping is. A `Role` tells which reader a node
  meets, and the roles of the values in it.
-/
import OpenApi.Build.Models
import OpenApi.Build.Operations

namespace OpenApi

/-- What a node is read as. A sequence has the role of its items. -/
inductive Role
  /-- A value of which everything counts. -/
  | exact
  /-- Nothing in it is read but by the names of keys, and every value in it is free. -/
  | free
  /-- A mapping of which every key counts, to values of one role. -/
  | table (values : Role)
  /-- The root of the entry document. -/
  | entry
  /-- The root of a document that is only referenced. -/
  | foreign
  | components
  | pathItem
  | operation
  | parameter
  | requestBody
  | response
  | mediaType
  /-- A named schema. -/
  | model
  /-- A member of an allOf. -/
  | member
  /-- A schema without a name, which may be that of the values of a map. -/
  | schema (mapped : Bool)
  deriving DecidableEq, Repr

namespace Role

/-- The role of the value under a key. -/
def under : Role → String → Role
  | .exact, _ => .exact
  | .table values, _ => values
  | .entry, "components" => .components
  | .entry, "security" => .table .free
  | .entry, "paths" => .table .pathItem
  | .foreign, "components" => .components
  | .components, "schemas" => .table .model
  | .components, "securitySchemes" => .table .free
  | .pathItem, "parameters" => .parameter
  | .pathItem, "servers" => .free
  -- every other key of a path item is that of an operation, or nothing is read under it
  | .pathItem, _ => .operation
  | .operation, "parameters" => .parameter
  | .operation, "requestBody" => .requestBody
  | .operation, "responses" => .table .response
  | .operation, "security" => .table .free
  | .parameter, "schema" => .schema false
  | .requestBody, "content" => .table .mediaType
  | .response, "content" => .table .mediaType
  | .mediaType, "schema" => .schema false
  | .model, "properties" => .table (.schema false)
  | .model, "allOf" => .member
  | .model, "discriminator" => .table (.table .free)
  | .model, "items" => .schema false
  | .member, "properties" => .table (.schema false)
  | .schema _, "properties" => .table (.schema false)
  | .schema _, "additionalProperties" => .schema true
  | .schema _, "items" => .schema false
  | .schema _, "example" => .exact
  | _, _ => .free

/-- Does every key of a mapping count? -/
def isListed : Role → Bool
  | .table _ => true
  | _ => false

/-- The keys whose presence decides what a mapping is, whatever their values. -/
def deciding : Role → List String
  | .requestBody => ["$ref"]
  | .response => ["$ref"]
  | .free => ["$ref"]
  | .parameter => ["$ref", "content", "schema"]
  | .model => ["properties", "enum", "allOf", "oneOf"]
  | .member => ["$ref", "properties", "required"]
  | .schema _ => "$ref" :: "properties" :: Build.compositions
  | _ => []

/-- The key may be asked for: every key of a table may, and elsewhere those that are no extensions. -/
def Finds (r : Role) (key : String) : Prop := r.isListed = true ∨ Usage.isExtension key = false

end Role

end OpenApi
