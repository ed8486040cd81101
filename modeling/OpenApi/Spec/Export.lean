/-
  OpenApi.Spec.Export — a spec as JSON.

  A record becomes an object with a member for each of its fields; what is absent is null. A value of one of
  several kinds becomes an object whose only member is named after the kind. Properties and contents become
  objects keyed by their names, and a reference becomes its text.
-/
import OpenApi.Spec.Basic

namespace OpenApi

namespace Json

/-! ## §1. Parts. -/

/-- A text that may be absent. -/
def ofText? : Option String → Json
  | some text => .string text
  | none => .null

/-- A natural number. -/
def ofNat (n : Nat) : Json := .number (.int n)

/-- A natural number that may be absent. -/
def ofNat? : Option Nat → Json
  | some n => ofNat n
  | none => .null

/-- A list of texts. -/
def ofTexts (texts : List String) : Json := .array (texts.map .string)

/-- A value of a kind. -/
def variant (kind : String) (value : Json) : Json := .object [(kind, value)]

end Json

/-! ## §2. Schemas. -/

/-- An embedded enumeration as JSON. -/
def EmbeddedEnum.toJson (e : EmbeddedEnum) : Json :=
  .object
    [("value_type", .string e.valueType), ("values", Json.ofTexts e.values),
      ("description", Json.ofText? e.description), ("declared_model", Json.ofText? e.declaredModel),
      ("declared_property", Json.ofText? e.declaredProperty)]

/-- A primitive type as JSON. -/
def Primitive.toJson (p : Primitive) : Json :=
  .object [("type", .string p.typeName), ("format", Json.ofText? p.format)]

mutual

/-- A schema as JSON. -/
def Schema.toJson : Schema → Json
  | .primitive p => Json.variant "primitive" p.toJson
  | .array a => Json.variant "array" a.toJson
  | .record values => Json.variant "record" (.object [("values", values.toJson)])
  | .constant value => Json.variant "constant" (.object [("value", .string value)])
  | .embeddedEnum e => Json.variant "embedded_enum" e.toJson
  | .object properties =>
    Json.variant "object" (.object [("properties", .object (propertiesToJson properties))])
  | .ref r => Json.variant "ref" (.string r.reference)

/-- An array as JSON. -/
def ArraySchema.toJson : ArraySchema → Json
  | ⟨items, uniqueItems, minItems, maxItems⟩ =>
    .object
      [("items", items.toJson), ("unique_items", .bool uniqueItems),
        ("min_items", Json.ofNat? minItems), ("max_items", Json.ofNat? maxItems)]

/-- A property as JSON. -/
def Property.toJson : Property → Json
  | ⟨name, description, sample, required, readOnly, writeOnly, nullable, owner, schema⟩ =>
    .object
      [("name", .string name), ("description", Json.ofText? description),
        ("example", sample.getD .null), ("required", .bool required), ("read_only", .bool readOnly),
        ("write_only", .bool writeOnly), ("nullable", .bool nullable), ("owner", Json.ofText? owner),
        ("schema", schema.toJson)]

/-- The properties of an object under their names. -/
def propertiesToJson : List Property → List (String × Json)
  | [] => []
  | p :: rest => (p.name, p.toJson) :: propertiesToJson rest

end

/-! ## §3. Models. -/

/-- A model as JSON. -/
def Model.toJson : Model → Json
  | .generic m =>
    Json.variant "generic"
      (.object
        [("name", .string m.name), ("description", Json.ofText? m.description),
          ("properties", .object (propertiesToJson m.properties))])
  | .enumeration m =>
    Json.variant "enum"
      (.object
        [("name", .string m.name), ("description", Json.ofText? m.description),
          ("value_type", .string m.valueType), ("values", Json.ofTexts m.values)])
  | .oneOf m =>
    Json.variant "one_of"
      (.object
        [("name", .string m.name), ("description", Json.ofText? m.description),
          ("members", Json.ofTexts (m.members.map (·.reference))),
          ("discriminator",
            .object
              [("property_name", Json.ofText? m.discriminator.propertyName),
                ("mapping",
                  .object (m.discriminator.mapping.map fun e => (e.1, .string e.2.reference)))])])
  | .allOf m =>
    Json.variant "all_of"
      (.object
        [("name", .string m.name), ("description", Json.ofText? m.description),
          ("required", Json.ofTexts m.required),
          ("supers", Json.ofTexts (m.supers.map (·.reference))),
          ("inline_supers",
            .array
              (m.inlineSupers.map fun o => .object [("properties", .object (propertiesToJson o))]))])
  | .array m =>
    Json.variant "array"
      (.object
        [("name", .string m.name), ("description", Json.ofText? m.description),
          ("array", m.array.toJson)])

/-! ## §4. Operations. -/

/-- The spelling of a value of a closed set as JSON. -/
def spellingToJson {α : Type} [Spelled α] (value : α) : Json := .string (Spelled.spelling value)

/-- A parameter as JSON. -/
def Parameter.toJson (p : Parameter) : Json :=
  .object
    [("name", .string p.name), ("description", Json.ofText? p.description),
      ("required", .bool p.required), ("location", spellingToJson p.location),
      ("style", (p.style.map spellingToJson).getD .null), ("explode", .bool p.explode),
      ("schema", p.schema.toJson)]

/-- A content as JSON. -/
def Content.toJson (c : Content) : Json :=
  .object
    [("content_type", .string c.contentType), ("required", .bool c.required),
      ("schema", c.schema.toJson)]

/-- Contents under their keys. -/
def contentsToJson (contents : Contents) : Json :=
  .object (contents.map fun entry => (entry.1, entry.2.toJson))

/-- A status as JSON. -/
def StatusCode.toJson : StatusCode → Json
  | .code value => Json.variant "code" (Json.ofNat value)
  | .range digit => Json.variant "range" (Json.ofNat digit)
  | .default => .string "default"

/-- A response as JSON. -/
def Response.toJson (r : Response) : Json :=
  .object
    [("status", r.status.toJson), ("description", Json.ofText? r.description),
      ("contents", contentsToJson r.contents)]

/-- A security requirement as JSON. -/
def SecurityRequirement.toJson (r : SecurityRequirement) : Json :=
  .object [("scheme", .string r.scheme), ("scopes", Json.ofTexts r.scopes)]

/-- An operation as JSON. -/
def Operation.toJson (o : Operation) : Json :=
  .object
    [("method", spellingToJson o.method), ("path", .string o.path),
      ("operation_id", .string o.operationId), ("summary", Json.ofText? o.summary),
      ("description", Json.ofText? o.description), ("tags", Json.ofTexts o.tags),
      ("parameters", .array (o.parameters.map Parameter.toJson)),
      ("request_bodies", contentsToJson o.requestBodies),
      ("responses", .array (o.responses.map Response.toJson)),
      ("security", .array (o.security.map SecurityRequirement.toJson))]

/-- A security scheme as JSON. -/
def SecurityScheme.toJson (s : SecurityScheme) : Json :=
  .object
    [("key", .string s.key), ("type", .string s.schemeType), ("name", Json.ofText? s.name),
      ("location", (s.location.map spellingToJson).getD .null),
      ("scheme", Json.ofText? s.scheme), ("bearer_format", Json.ofText? s.bearerFormat)]

/-! ## §5. Specs. -/

/-- Whom to ask as JSON. -/
def Contact.toJson (c : Contact) : Json :=
  .object
    [("name", Json.ofText? c.name), ("email", Json.ofText? c.email), ("url", Json.ofText? c.url)]

/-- What an API says about itself as JSON. -/
def Info.toJson (i : Info) : Json :=
  .object
    [("title", Json.ofText? i.title), ("description", Json.ofText? i.description),
      ("version", Json.ofText? i.version), ("contact", (i.contact.map Contact.toJson).getD .null)]

/-- A server as JSON. -/
def Server.toJson (s : Server) : Json :=
  .object
    [("url", .string s.url), ("description", Json.ofText? s.description),
      ("name", Json.ofText? s.name)]

/-- A group of operations as JSON. -/
def Api.toJson (a : Api) : Json :=
  .object [("tag", .string a.tag), ("operation_ids", Json.ofTexts a.operationIds)]

/-- A spec as JSON: the models by name, and their numbers in the order of declaration. -/
def Spec.toJson (s : Spec) : Json :=
  .object
    [("info", s.info.toJson), ("servers", .array (s.servers.map Server.toJson)),
      ("models", .array (s.sortedModels.map Model.toJson)),
      ("operations", .array (s.operations.map Operation.toJson)),
      ("apis", .object (s.apis.map fun a => (a.tag, a.toJson))),
      ("securitySchemes", .array (s.securitySchemes.map SecurityScheme.toJson)),
      ("ids", .array ((List.range s.count).map Json.ofNat))]

end OpenApi
