/-
  OpenApi.Operation.Basic — operations, their parameters, bodies and responses.

  Contents are kept under their content type. Of several request bodies, JSON is preferred, then a form, then
  multipart data, then the one that was declared first.
-/
import OpenApi.Operation.Kinds
import OpenApi.Operation.Status
import OpenApi.Schema.Basic
import OpenApi.Text.Blank

namespace OpenApi

/-! ## §1. Parameters and contents. -/

/-- A parameter of an operation. -/
structure Parameter where
  name : String
  description : Option String
  required : Bool
  location : ParameterLocation
  /-- The declared style; without one, the location decides. -/
  style : Option ParameterStyle
  explode : Bool
  schema : Schema

/-- One content type of a body. -/
structure Content where
  contentType : String
  required : Bool
  schema : Schema

/-- Contents under their keys, which are distinct. -/
abbrev Contents := List (String × Content)

/-- The content type of JSON. -/
def jsonType : String := "application/json"

/-- The content type of a form. -/
def formType : String := "application/x-www-form-urlencoded"

/-- The content type of multipart data. -/
def multipartType : String := "multipart/form-data"

/-- Does the text start with `start`? -/
def startsWith (start text : String) : Bool := start.toList.isPrefixOf text.toList

namespace Content

/-- Is it a form or multipart data, with whatever parameters? -/
def isForm (c : Content) : Bool :=
  startsWith formType c.contentType || startsWith multipartType c.contentType

/-- Is it JSON, or a type built on JSON? -/
def isJson (c : Content) : Bool :=
  c.contentType = jsonType || "+json".toList.isSuffixOf c.contentType.toList

end Content

/-- The content type without its parameters: what stands before the first semicolon, trimmed. -/
def essence (contentType : String) : String :=
  let s := contentType.toList
  match Text.splitFirst ';' s with
  | some (front, _) => String.ofList (Text.trim front)
  | none => String.ofList (Text.trim s)

/-! ## §2. Responses and security. -/

/-- A response. -/
structure Response where
  status : StatusCode
  description : Option String
  contents : Contents

namespace Response

/-- Does the response report success? -/
def isSuccess (r : Response) : Bool := r.status.leading = some 2

/-- Does the response blame the request? -/
def isRequestError (r : Response) : Bool := r.status.leading = some 4

/-- The JSON content. -/
def json (r : Response) : Option Content := Keyed.value? jsonType r.contents

end Response

/-- A security scheme that an operation asks for, and the scopes in it. -/
structure SecurityRequirement where
  scheme : String
  scopes : List String
  deriving DecidableEq, Repr

/-- A way to authenticate. -/
structure SecurityScheme where
  key : String
  schemeType : String
  /-- The name of the header, query parameter or cookie that holds a key. -/
  name : Option String
  location : Option ParameterLocation
  /-- The authorization scheme of HTTP. -/
  scheme : Option String
  bearerFormat : Option String
  deriving DecidableEq, Repr

/-! ## §3. Operations. -/

/-- An operation: a method on a path. -/
structure Operation where
  method : HttpMethod
  path : String
  operationId : String
  summary : Option String
  description : Option String
  tags : List String
  parameters : List Parameter
  requestBodies : Contents
  responses : List Response
  security : List SecurityRequirement

namespace Operation

/-- The parameters sent in one place. -/
def parametersIn (o : Operation) (location : ParameterLocation) : List Parameter :=
  o.parameters.filter fun p => p.location = location

/-- The body types that clients prefer, best first. -/
def preferredTypes : List String := [jsonType, formType, multipartType]

/-- The body that a client sends. -/
def requestBody (o : Operation) : Option Content :=
  match preferredTypes.findSome? fun t => Keyed.value? t o.requestBodies with
  | some content => some content
  | none => o.requestBodies.head?.map (·.2)

/-- Does the operation require nothing: no parameter, no body, no authentication? -/
def requiresNothing (o : Operation) : Bool :=
  !(o.parameters.any (·.required)) && !(o.requestBodies.any (·.2.required)) && o.security.isEmpty

/-- The first response that reports success. -/
def successResponse (o : Operation) : Option Response := o.responses.find? Response.isSuccess

/-- The schema of the JSON content of the first successful response. -/
def responseType (o : Operation) : Option Schema :=
  (o.successResponse.bind Response.json).map (·.schema)

/-- The identifier of an operation that has none of its own: the words of its path and its method. -/
def derivedId (path : String) (method : HttpMethod) : String :=
  let segments := Text.pieces (· = '/') path.toList
  let plain := segments.map fun s => s.filter fun c => c ≠ '\x7b' && c ≠ '\x7d'
  String.join (plain.map fun s => Text.pascalCase (String.ofList s)) ++
    Text.pascalCase (Spelled.spelling method)

end Operation

end OpenApi
