/-
  OpenApi.Yaml.Reader — reading YAML.

  A text holds one document at most; a text without one is null. The text is cut into tokens, the
  tokens are read as nodes, the nodes give a value, and merge keys are applied to it.
-/
import OpenApi.Yaml.Lexer
import OpenApi.Yaml.Merge
import OpenApi.Yaml.Resolve

namespace OpenApi.Yaml

/-- The value of a YAML text, if it is well-formed. -/
def parse (text : String) : Option Value :=
  match tokens? text.toList with
  | none => none
  | some ts =>
    match Graph.ofTokens? ts with
    | none => none
    | some none => some (.scalar .null)
    | some (some g) =>
      match g.value? with
      | none => none
      | some v => v.merged

end OpenApi.Yaml
