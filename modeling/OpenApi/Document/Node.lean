/-
  OpenApi.Document.Node — the tree of a document, the same for YAML and JSON.

  A node knows the text of each scalar and the JSON form of each number, so nothing later depends on the
  format a document is written in. Keys that have no text (null, collections) are kept, since they
  decide whether a node has a JSON form, but no lookup finds them. A tag is looked through by every
  lookup and shows only in the JSON form.
-/
import OpenApi.Json.Writer
import OpenApi.Yaml.Value

namespace OpenApi

open Decimal

/-! ## §1. Nodes. -/

/-- Why a value has no JSON form. -/
inductive JsonProblem
  | keyNotText
  | keyNotFinite
  deriving DecidableEq, Repr

/-- The problem in words. -/
def JsonProblem.message : JsonProblem → String
  | .keyNotText => "key must be a string"
  | .keyNotFinite => "float key must be finite (got NaN or +/-inf)"

/-- A key of a mapping. -/
structure Key where
  /-- Its text, if it is a scalar other than null. -/
  text : Option String
  /-- Its text as the name of a JSON member. -/
  name : Except JsonProblem String

/-- A node of a document. -/
inductive Node
  | null
  | bool (value : Bool)
  /-- A number: its text, and its JSON form. -/
  | number (text : String) (json : Json)
  | string (value : String)
  | sequence (items : List Node)
  | mapping (entries : List (Key × Node))
  | tagged (tag : String) (node : Node)
  deriving Inhabited

/-- The shape of a node. -/
inductive NodeKind
  | mapping
  | sequence
  | scalar
  | null
  deriving DecidableEq, Repr

/-- The name of a shape, as messages write it. -/
def NodeKind.text : NodeKind → String
  | .mapping => "mapping"
  | .sequence => "sequence"
  | .scalar => "scalar"
  | .null => "null"

namespace Key

/-- A key that is a text. -/
def ofText (text : String) : Key := ⟨some text, .ok text⟩

end Key

/-- The text of a boolean. -/
def boolText (b : Bool) : String := if b then "true" else "false"

namespace Node

/-! ## §2. Looking at a node. -/

/-- The node without its tags. -/
def untagged : Node → Node
  | .tagged _ n => n.untagged
  | n => n

/-- The shape of a node. -/
def kind : Node → NodeKind
  | .null => .null
  | .bool _ => .scalar
  | .number _ _ => .scalar
  | .string _ => .scalar
  | .sequence _ => .sequence
  | .mapping _ => .mapping
  | .tagged _ n => n.kind

/-- The entries of a mapping; other nodes have none. -/
def entries : Node → List (Key × Node)
  | .mapping entries => entries
  | .tagged _ n => n.entries
  | _ => []

/-- The items of a sequence; other nodes have none. -/
def items : Node → List Node
  | .sequence items => items
  | .tagged _ n => n.items
  | _ => []

/-- The texts of the keys of a mapping, in order. -/
def keys (n : Node) : List String := n.entries.filterMap fun e => e.1.text

/-- The first value of a mapping whose key has this text. -/
def get? (n : Node) (key : String) : Option Node :=
  (n.entries.find? fun e => e.1.text = some key).map (·.2)

/-- The text of a scalar other than null. -/
def scalarText : Node → Option String
  | .bool b => some (boolText b)
  | .number text _ => some text
  | .string s => some s
  | .tagged _ n => n.scalarText
  | _ => none

/-- The value of a boolean. -/
def boolean? : Node → Option Bool
  | .bool b => some b
  | .tagged _ n => n.boolean?
  | _ => none

mutual

/-- How deep collections and tags are nested. -/
def height : Node → Nat
  | .sequence items => heightOfItems items + 1
  | .mapping entries => heightOfEntries entries + 1
  | .tagged _ n => height n + 1
  | _ => 0

/-- The greatest height of items. -/
def heightOfItems : List Node → Nat
  | [] => 0
  | n :: rest => max (height n) (heightOfItems rest)

/-- The greatest height of the values of entries. -/
def heightOfEntries : List (Key × Node) → Nat
  | [] => 0
  | (_, n) :: rest => max (height n) (heightOfEntries rest)

end

/-! ## §3. The JSON form. -/

mutual

/-- The JSON form of a node inside another one: a tag becomes an object around the value. -/
def innerJson : Node → Except JsonProblem Json
  | .null => .ok .null
  | .bool b => .ok (.bool b)
  | .number _ json => .ok json
  | .string s => .ok (.string s)
  | .sequence items => (itemsJson items).map .array
  | .mapping entries => (entriesJson entries []).map .object
  | .tagged tag n => n.innerJson.map fun json => .object [("!" ++ tag, json)]

/-- The JSON forms of items. -/
def itemsJson : List Node → Except JsonProblem (List Json)
  | [] => .ok []
  | n :: rest =>
    match innerJson n with
    | .error p => .error p
    | .ok json => (itemsJson rest).map (json :: ·)

/-- The members for entries, after the members so far. -/
def entriesJson : List (Key × Node) → List (String × Json) →
    Except JsonProblem (List (String × Json))
  | [], members => .ok members
  | (key, n) :: rest, members =>
    match key.name with
    | .error p => .error p
    | .ok name =>
      match innerJson n with
      | .error p => .error p
      | .ok json => entriesJson rest (Json.setMember members name json)

end

/-- The JSON form of a node; its own tags do not show. -/
def json (n : Node) : Except JsonProblem Json := n.untagged.innerJson

/-! ## §4. The tree of a JSON document. -/

/-- The JSON form of a number; NaN and the infinities have none and become null. -/
def numberJson (x : Double) : Json := if x.isFinite then .number (.double x) else .null

/-- The node of a number in a JSON document. -/
def ofNumber (n : Number) : Node := .number (Json.numberText n) (.number n)

mutual

/-- The tree of a JSON value. -/
def ofJson : Json → Node
  | .null => .null
  | .bool b => .bool b
  | .number n => ofNumber n
  | .string s => .string s
  | .array items => .sequence (ofJsonItems items)
  | .object members => .mapping (ofJsonMembers members)

/-- The trees of items. -/
def ofJsonItems : List Json → List Node
  | [] => []
  | v :: rest => ofJson v :: ofJsonItems rest

/-- The entries for members. -/
def ofJsonMembers : List (String × Json) → List (Key × Node)
  | [] => []
  | (name, v) :: rest => (Key.ofText name, ofJson v) :: ofJsonMembers rest

end

/-! ## §5. The tree of a YAML document. -/

/-- Floats in YAML: an exponent has no plus sign. -/
def floatNotation : Notation where
  plainFrom := -5
  plainBelow := 16
  plus := ""

/-- The text of a float in YAML. -/
def floatText (x : Double) : String :=
  if x.isNaN then ".nan"
  else if !x.isFinite then (if x.isNegative then "-.inf" else ".inf")
  else floatNotation.finiteText x

/-- The node of a YAML scalar. -/
def ofScalar : Yaml.Scalar → Node
  | .null => .null
  | .bool b => .bool b
  | .int n => .number (toString n) (.number (.int n))
  | .float x => .number (floatText x) (numberJson x)
  | .string s => .string s

/-- The key that a YAML value makes. A tag hides a key from JSON, but not from lookups. -/
def keyOf : Yaml.Value → Key
  | .scalar .null => ⟨none, .error .keyNotText⟩
  | .scalar (.bool b) => .ofText (boolText b)
  | .scalar (.int n) => .ofText (toString n)
  | .scalar (.float x) =>
    ⟨some (floatText x),
      if x.isFinite then .ok (Json.doubleNotation.finiteText x) else .error .keyNotFinite⟩
  | .scalar (.string s) => .ofText s
  | .sequence _ => ⟨none, .error .keyNotText⟩
  | .mapping _ => ⟨none, .error .keyNotText⟩
  | .tagged _ v => ⟨(keyOf v).text, .error .keyNotText⟩

mutual

/-- The tree of a YAML value. -/
def ofYaml : Yaml.Value → Node
  | .scalar s => ofScalar s
  | .sequence items => .sequence (ofYamlItems items)
  | .mapping entries => .mapping (ofYamlEntries entries)
  | .tagged tag v => .tagged tag (ofYaml v)

/-- The trees of items. -/
def ofYamlItems : List Yaml.Value → List Node
  | [] => []
  | v :: rest => ofYaml v :: ofYamlItems rest

/-- The entries of a YAML mapping. -/
def ofYamlEntries : List (Yaml.Value × Yaml.Value) → List (Key × Node)
  | [] => []
  | (k, v) :: rest => (keyOf k, ofYaml v) :: ofYamlEntries rest

end

end Node

end OpenApi
