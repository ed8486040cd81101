/-
  OpenApi.Yaml.Token — the tokens of a YAML text.

  Indentation is made explicit: a block collection is opened by a token of its own and closed by
  `blockEnd`; a key that is recognised late gets its `key` token in front of it.
-/
import OpenApi.Yaml.Tag

namespace OpenApi.Yaml

/-- A token. -/
inductive Token
  | streamEnd
  | version (major minor : Nat)
  /-- A handle and the text it stands for. -/
  | tagHandle (handle : String) (stem : Tag)
  | documentStart
  | documentEnd
  | blockSequenceStart
  | blockMappingStart
  | blockEnd
  | flowSequenceStart
  | flowSequenceEnd
  | flowMappingStart
  | flowMappingEnd
  | blockEntry
  | flowEntry
  | key
  | value
  | alias (name : String)
  | anchor (name : String)
  | tag (handle : String) (suffix : Tag)
  /-- The text of a scalar, and whether it is written plainly, without quotes or indicator. -/
  | scalar (text : String) (plain : Bool)
  deriving DecidableEq, Repr

end OpenApi.Yaml
