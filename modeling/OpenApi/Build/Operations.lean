/-
  OpenApi.Build.Operations — reading paths.

  An operation has the parameters of its path item, each overridden by its own of the same name and place.
  Without an identifier it gets one from its path and method, without tags the default tag, without security
  requirements those of the document.
-/
import OpenApi.Build.Bodies
import OpenApi.Build.Security

namespace OpenApi.Build

/-! ## §1. Parameters. -/

/-- Reads a parameter. Enumerations in it are named after `typeName`, if there is one. -/
def readParameter (typeName : Option String) (m : Mapping) : Building Parameter := do
  if m.containsKey "$ref" then
    throw (m.unsupportedAt "$ref" "parameter reference (components.parameters is not modeled)")
  else if m.containsKey "content" && !m.containsKey "schema" then
    throw (m.unsupportedAt "content" "parameter content (use schema instead)")
  else
    m.ignore ["example", "examples", "deprecated", "allowEmptyValue", "allowReserved"]
    let name ← (← m.string "name").required
    let location ← (← m.oneOf ParameterLocation "in").required
    let schemaNode ← (← m.mapping "schema").required
    let schema ← readSchema ⟨typeName, some name⟩ schemaNode
    let description := (← m.string "description").optional
    let required := (← m.boolean "required").getD (location = .path)
    let style := (← m.oneOf ParameterStyle "style").optional
    let explode := (← m.boolean "explode").getD true
    pure ⟨name, description, required, location, style, explode, schema⟩

/-- Reads the parameters of a path item or operation, if it has any. -/
def readParameters (typeName : Option String) (m : Mapping) : Building (List Parameter) := do
  match (← m.sequence "parameters").optional with
  | none => pure []
  | some parameters => (← parameters.mappings).mapM (readParameter typeName)

/-- What tells parameters apart. -/
def parameterKey (p : Parameter) : String × ParameterLocation := (p.name, p.location)

/-! ## §2. Operations. -/

/-- What operations get that they do not declare. -/
structure Defaults where
  tag : String
  security : List SecurityRequirement

/-- Puts one more tag behind others, or reports that it is there already. -/
def addTag (m : Mapping) (tags : List String) (tag : String) : Building (List String) := do
  if tags.contains tag then
    Building.report (.duplicateTag tag m.location)
    pure tags
  else pure (tags ++ [tag])

/-- Reads the tags of an operation. -/
def readTags (defaultTag : String) (m : Mapping) : Building (List String) := do
  match ← readTexts m "tags" with
  | [] => pure [defaultTag]
  | tags => tags.foldlM (addTag m) []

/-- Reads an operation of a path item whose parameters are `common`. -/
def readOperation (defaults : Defaults) (path : String) (common : List Parameter)
    (method : HttpMethod) (m : Mapping) : Building Operation := do
  m.ignore ["deprecated", "externalDocs", "servers", "callbacks"]
  let operationId := (← m.string "operationId").getD (Operation.derivedId path method)
  let summary := (← m.string "summary").optional
  let description := (← m.string "description").optional
  let tags ← readTags defaults.tag m
  let typeName := Text.pascalCase operationId
  let own ← readParameters (some typeName) m
  let requestBodies ←
    Building.optionally (readRequestBody typeName) [] (← m.mapping "requestBody").optional
  let responses ← Building.optionally (readResponses typeName) [] (← m.mapping "responses").optional
  let security ←
    Building.optionally readRequirements defaults.security (← m.sequence "security").optional
  pure
    { method, path, operationId, summary, description, tags
      parameters := Keyed.putAll parameterKey common own
      requestBodies, responses, security }

/-! ## §3. Paths. -/

/-- Is it a key of a path item that is no operation? -/
def isItemKey (key : String) : Bool :=
  ["parameters", "summary", "description", "servers"].contains key || Usage.isExtension key

/-- Reads the operation under a key of a path item into the spec. -/
def readMethod (defaults : Defaults) (path : String) (common : List Parameter) (item : Mapping)
    (key : String) : Building Unit := do
  match (Spelled.ofText? key : Option HttpMethod) with
  | none => throw (item.unsupportedAt key ("path item key '" ++ key ++ "'"))
  | some method =>
    let m ← (← item.mapping key).required
    let operation ← readOperation defaults path common method m
    Building.report (.builtOperation operation.method operation.path operation.operationId)
    Building.update fun spec => spec.addOperation operation

/-- Reads the operations of a path into the spec. -/
def readItem (defaults : Defaults) (path : String) (item : Mapping) : Building Unit := do
  item.ignore ["summary", "description", "servers"]
  -- these parameters belong to no single operation, so nothing is named after one
  let common ← readParameters none item
  (item.keys.filter fun key => !isItemKey key).forM (readMethod defaults path common item)

/-- Reads all operations of a document into the spec. -/
def readPaths (defaults : Defaults) (paths : Mapping) : Building Unit := do
  (← paths.mappingEntries).forM fun entry => readItem defaults entry.1 entry.2

end OpenApi.Build
