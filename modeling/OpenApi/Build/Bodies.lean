/-
  OpenApi.Build.Bodies — reading the contents of request bodies and responses.

  A content is kept under its type without parameters. An object that is declared in place, unless it is a
  form, becomes a named model; several contents may share one as long as its properties are the same.
-/
import OpenApi.Build.Schemas

namespace OpenApi.Build

/-- Makes a named model of the properties of a body and gives a reference to it. -/
def nameObject (properties : List Property) (name contentType : String) (m : Mapping) :
    Building SchemaRef := do
  let model := properties.foldl GenericModel.insert (.empty name)
  let other := m.unsupported
    ("second inline " ++ contentType ++ " body of '" ++ name ++ "' with a different shape")
  match (← Building.spec).modelNamed? name with
  | some (.generic known) =>
    -- the same object may stand under several content types
    if sameProperties known.properties model.properties then pure () else throw other
  | some _ => throw other
  | none =>
    let description := (← m.string "description").optional
    Building.report (.namedInlineBody name contentType)
    Building.update fun spec => spec.addModel m.filename (.generic { model with description })
  let r := SchemaRef.toModel m.filename name
  Building.addReference r
  pure r

/-- Reads one content. Without a schema it is skipped. -/
def readContent (required : Bool) (modelName declaredType : String) (media : Mapping) :
    Building (Option Content) := do
  media.ignore ["example", "examples", "encoding"]
  match (← media.mapping "schema").optional with
  | none =>
    Building.report (.skippedContent declaredType media.location)
    pure none
  | some m =>
    let schema ← readSchema (.ofModel modelName) m
    let content : Content := ⟨essence declaredType, required, schema⟩
    match schema with
    | .object properties =>
      if content.isForm then pure (some content)
      else
        let r ← nameObject properties modelName content.contentType m
        pure (some { content with schema := .ref r })
    | _ => pure (some content)

/-- Reads contents; of two with one type, the later replaces the earlier. -/
def readContents (required : Bool) (modelName : String) (content : Mapping) : Building Contents := do
  let contents ← (← content.mappingEntries).mapM fun (contentType, media) =>
    readContent required modelName contentType media
  pure (Keyed.putAll Prod.fst [] (contents.filterMap id |>.map fun c => (c.contentType, c)))

/-- Reads a request body. -/
def readRequestBody (typeName : String) (body : Mapping) : Building Contents := do
  if body.containsKey "$ref" then
    throw (body.unsupportedAt "$ref"
      "request body reference (components.requestBodies is not modeled)")
  else
    body.ignore ["description"]
    let required := (← body.boolean "required").getD false
    let content ← (← body.mapping "content").required
    readContents required (typeName ++ "Request") content

/-- Reads the response under a key. -/
def readResponse (typeName : String) (responses : Mapping) (key : String) (m : Mapping) :
    Building Response := do
  match StatusCode.parse key with
  | none => throw (responses.invalidValueAt key ("invalid response status '" ++ key ++ "'"))
  | some status =>
    if m.containsKey "$ref" then
      throw (m.unsupportedAt "$ref" "response reference (components.responses is not modeled)")
    else
      m.ignore ["headers", "links"]
      let modelName := typeName ++ Text.pascalCase status.text ++ "Response"
      let contents ←
        Building.optionally (readContents true modelName) [] (← m.mapping "content").optional
      let description := (← m.string "description").optional
      pure ⟨status, description, contents⟩

/-- Reads responses in order. -/
def readResponses (typeName : String) (responses : Mapping) : Building (List Response) := do
  (← responses.mappingEntries).mapM fun (key, m) => readResponse typeName responses key m

end OpenApi.Build
