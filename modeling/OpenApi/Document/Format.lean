/-
  OpenApi.Document.Format — the format of a document, by the extension of its name.
-/
import OpenApi.Text.Cut

namespace OpenApi

/-- The formats of documents. -/
inductive Format
  | yaml
  | json
  deriving DecidableEq, Repr

namespace Format

/-- The name of a format. -/
def text : Format → String
  | .yaml => "yaml"
  | .json => "json"

/-- The format of a file: what follows the last point of its name decides, in upper or lower case. -/
def ofFilename? (filename : String) : Option Format :=
  match Text.splitLast '.' filename.toList with
  | none => none
  | some (_, extension) =>
    let extension := String.ofList (extension.map Char.toLower)
    if extension = "yaml" || extension = "yml" then some .yaml
    else if extension = "json" then some .json
    else none

end Format

end OpenApi
