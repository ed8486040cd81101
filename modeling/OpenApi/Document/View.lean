/-
  OpenApi.Document.View — reading the values of either format in place.

  A view answers the questions that are asked about a value of one format. YAML answers them from its entries, by the
  texts of the keys, and looks through tags; JSON answers them from the members of objects. Documents hold nodes, which
  answer them alike for both formats.
-/
import OpenApi.Document.Node

namespace OpenApi

/-- A view of the values of one format. -/
structure View (α : Type) where
  kind : α → NodeKind
  /-- The value of a mapping under a key. -/
  get? : α → String → Option α
  /-- The texts of the keys of a mapping, in order. -/
  keys : α → List String
  /-- The items of a sequence. -/
  items : α → List α
  /-- The text of a scalar other than null. -/
  scalarText : α → Option String
  boolean? : α → Option Bool
  /-- The JSON form of a value; its own tags do not show. -/
  toJson : α → Except JsonProblem Json

/-! ## §1. YAML values. -/

namespace Yaml.Value

/-- The value without its tags. -/
def untagged : Value → Value
  | .tagged _ v => v.untagged
  | v => v

/-- The text of a scalar other than null. -/
def text? (v : Value) : Option String :=
  match v.untagged with
  | .scalar (.string s) => some s
  | .scalar (.int n) => some (toString n)
  | .scalar (.float x) => some (Node.floatText x)
  | .scalar (.bool b) => some (boolText b)
  | _ => none

/-- The JSON form of a scalar. -/
def scalarJson : Scalar → Json
  | .null => .null
  | .bool b => .bool b
  | .int n => .number (.int n)
  | .float x => Node.numberJson x
  | .string s => .string s

mutual

/-- The JSON form of a value inside another one: a tag becomes an object around the value. -/
def innerJson : Value → Except JsonProblem Json
  | .scalar s => .ok (scalarJson s)
  | .sequence items => (itemsJson items).map .array
  | .mapping entries => (entriesJson entries []).map .object
  | .tagged tag v => (innerJson v).map fun json => .object [("!" ++ tag, json)]

/-- The JSON forms of items. -/
def itemsJson : List Value → Except JsonProblem (List Json)
  | [] => .ok []
  | v :: rest =>
    match innerJson v with
    | .error p => .error p
    | .ok json => (itemsJson rest).map (json :: ·)

/-- The members for entries, after the members so far. -/
def entriesJson : List (Value × Value) → List (String × Json) → Except JsonProblem (List (String × Json))
  | [], members => .ok members
  | (key, v) :: rest, members =>
    match (Node.keyOf key).name with
    | .error p => .error p
    | .ok name =>
      match innerJson v with
      | .error p => .error p
      | .ok json => entriesJson rest (Json.setMember members name json)

end

end Yaml.Value

namespace View

/-- The view of YAML values. -/
def yaml : View Yaml.Value where
  kind v :=
    match v.untagged with
    | .scalar .null => .null
    | .mapping _ => .mapping
    | .sequence _ => .sequence
    | _ => .scalar
  get? v key :=
    match v.untagged with
    | .mapping entries => (entries.find? fun e => e.1.text? = some key).map (·.2)
    | _ => none
  keys v :=
    match v.untagged with
    | .mapping entries => entries.filterMap fun e => e.1.text?
    | _ => []
  items v :=
    match v.untagged with
    | .sequence items => items
    | _ => []
  scalarText := Yaml.Value.text?
  boolean? v :=
    match v.untagged with
    | .scalar (.bool b) => some b
    | _ => none
  toJson v := v.untagged.innerJson

/-! ## §2. JSON values. -/

/-- The view of JSON values. -/
def json : View Json where
  kind
    | .null => .null
    | .object _ => .mapping
    | .array _ => .sequence
    | _ => .scalar
  get? v key :=
    match v with
    | .object members => Json.member? members key
    | _ => none
  keys
    | .object members => members.map (·.1)
    | _ => []
  items
    | .array items => items
    | _ => []
  scalarText
    | .string s => some s
    | .number n => some (Json.numberText n)
    | .bool b => some (boolText b)
    | _ => none
  boolean?
    | .bool b => some b
    | _ => none
  toJson v := .ok v

end View

end OpenApi
