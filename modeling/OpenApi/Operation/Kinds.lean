/-
  OpenApi.Operation.Kinds — the closed sets that operations use.

  Methods, places and styles of parameters have a spelling each, and `Spelled.ofText?` reads exactly those.
-/
import OpenApi.Spelled

namespace OpenApi

/-! ## §1. Methods. -/

/-- The methods of HTTP. -/
inductive HttpMethod
  | get
  | put
  | post
  | delete
  | options
  | head
  | patch
  | trace
  deriving DecidableEq, Repr

instance : Spelled HttpMethod where
  all := [.get, .put, .post, .delete, .options, .head, .patch, .trace]
  spelling
    | .get => "get"
    | .put => "put"
    | .post => "post"
    | .delete => "delete"
    | .options => "options"
    | .head => "head"
    | .patch => "patch"
    | .trace => "trace"

/-- The name of a method as requests write it, in upper case. -/
def HttpMethod.text (m : HttpMethod) : String := (Spelled.spelling m).map Char.toUpper

/-! ## §2. Parameters. -/

/-- Where a parameter is sent. -/
inductive ParameterLocation
  | path
  | query
  | header
  | cookie
  deriving DecidableEq, Repr

instance : Spelled ParameterLocation where
  all := [.path, .query, .header, .cookie]
  spelling
    | .path => "path"
    | .query => "query"
    | .header => "header"
    | .cookie => "cookie"

/-- How the value of a parameter is written. -/
inductive ParameterStyle
  | matrix
  | label
  | form
  | simple
  | spaceDelimited
  | pipeDelimited
  | deepObject
  deriving DecidableEq, Repr

instance : Spelled ParameterStyle where
  all := [.matrix, .label, .form, .simple, .spaceDelimited, .pipeDelimited, .deepObject]
  spelling
    | .matrix => "matrix"
    | .label => "label"
    | .form => "form"
    | .simple => "simple"
    | .spaceDelimited => "spaceDelimited"
    | .pipeDelimited => "pipeDelimited"
    | .deepObject => "deepObject"

end OpenApi
