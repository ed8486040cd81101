/-
  OpenApi.Model.Kind — the five kinds of named models.
-/

namespace OpenApi

/-- Which kind of model a named schema is. -/
inductive ModelKind
  | generic
  | enumeration
  | oneOf
  | allOf
  | array
  deriving DecidableEq, Repr

/-- The name of a kind, as messages and logs write it. -/
def ModelKind.text : ModelKind → String
  | .generic => "generic"
  | .enumeration => "enum"
  | .oneOf => "oneOf"
  | .allOf => "allOf"
  | .array => "array"

end OpenApi
