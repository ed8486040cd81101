/-
  OpenApi.Json.Value — JSON values.

  An object keeps its members in order and holds no name twice; `Json.set` is the only way the readers
  add one. `Json.same` is equality of values: the order of members does not matter, numbers are
  compared as numbers of one kind.
-/
import OpenApi.Decimal.Double

namespace OpenApi

open Decimal

/-! ## §1. Values. -/

/-- A number: an integer held exactly, or a double. -/
inductive Number
  | int (value : Int)
  | double (value : Double)
  deriving DecidableEq, Repr

/-- A JSON value. -/
inductive Json
  | null
  | bool (value : Bool)
  | number (value : Number)
  | string (value : String)
  | array (items : List Json)
  | object (members : List (String × Json))
  deriving Inhabited

namespace Json

/-- Gives `name` a value: a name that is present keeps its place, a new one goes to the end. -/
def setMember (members : List (String × Json)) (name : String) (value : Json) :
    List (String × Json) :=
  match members with
  | [] => [(name, value)]
  | m :: rest => if m.1 = name then (name, value) :: rest else m :: setMember rest name value

/-- The value under `name`. -/
def member? (members : List (String × Json)) (name : String) : Option Json :=
  (members.find? fun m => m.1 = name).map (·.2)

/-! ## §2. Equality of values. -/

/-- Equality of numbers: an integer never equals a double. -/
def sameNumber : Number → Number → Bool
  | .int a, .int b => a = b
  | .double a, .double b => a.same b
  | _, _ => false

mutual

/-- Equality of values, whatever the order of members. -/
def same : Json → Json → Bool
  | .null, .null => true
  | .bool a, .bool b => a = b
  | .number a, .number b => sameNumber a b
  | .string a, .string b => a = b
  | .array a, .array b => sameItems a b
  | .object a, .object b => a.length = b.length && sameMembers a b
  | _, _ => false

/-- Equality of lists, item by item. -/
def sameItems : List Json → List Json → Bool
  | [], [] => true
  | a :: as, b :: bs => same a b && sameItems as bs
  | _, _ => false

/-- Does every member of the first object have an equal value in the second? -/
def sameMembers : List (String × Json) → List (String × Json) → Bool
  | [], _ => true
  | (name, a) :: rest, other =>
    (match member? other name with
      | some b => same a b
      | none => false) && sameMembers rest other

end

end Json

end OpenApi
