/-
  OpenApi.Yaml.Value — YAML values.

  A mapping keeps its entries in order; any value may be a key, and no key occurs twice. A tag that is
  not one of the core tags stays with its value. `Value.same` is the equality that decides whether two
  keys are one.
-/
import OpenApi.Yaml.Scalar

namespace OpenApi.Yaml

open Decimal

/-! ## §1. Values. -/

/-- A YAML value. -/
inductive Value
  | scalar (value : Scalar)
  | sequence (items : List Value)
  | mapping (entries : List (Value × Value))
  | tagged (tag : String) (value : Value)
  deriving Inhabited

/-- Equality of scalars: an integer never equals a float, the two zeros are equal, all NaNs are. -/
def Scalar.same : Scalar → Scalar → Bool
  | .float a, .float b => (a.isNaN && b.isNaN) || a.same b
  | a, b => a = b

namespace Value

mutual

/-- Equality of values, whatever the order of entries. -/
def same : Value → Value → Bool
  | .scalar a, .scalar b => a.same b
  | .sequence a, .sequence b => sameItems a b
  | .mapping a, .mapping b => a.length = b.length && sameEntries a b
  | .tagged t a, .tagged u b => t = u && same a b
  | _, _ => false

/-- Equality of lists, item by item. -/
def sameItems : List Value → List Value → Bool
  | [], [] => true
  | a :: as, b :: bs => same a b && sameItems as bs
  | _, _ => false

/-- Is every entry of the first mapping one of the second? -/
def sameEntries : List (Value × Value) → List (Value × Value) → Bool
  | [], _ => true
  | (k, v) :: rest, other =>
    (other.any fun e => same k e.1 && same v e.2) && sameEntries rest other

end

/-- Does the mapping have the key? -/
def hasKey (entries : List (Value × Value)) (key : Value) : Bool :=
  entries.any fun e => same key e.1

mutual

/-- How deep collections and tags are nested. -/
def height : Value → Nat
  | .scalar _ => 0
  | .sequence items => heightItems items + 1
  | .mapping entries => heightEntries entries + 1
  | .tagged _ value => height value + 1

/-- The greatest height of the items. -/
def heightItems : List Value → Nat
  | [] => 0
  | v :: rest => max (height v) (heightItems rest)

/-- The greatest height of the values of entries. -/
def heightEntries : List (Value × Value) → Nat
  | [] => 0
  | (_, v) :: rest => max (height v) (heightEntries rest)

end

end Value

end OpenApi.Yaml
