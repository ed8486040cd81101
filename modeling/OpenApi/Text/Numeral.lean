/-
  OpenApi.Text.Numeral — unsigned numbers in decimal.

  A number is one digit or more after at most one plus sign, and is below a bound.
-/

namespace OpenApi.Text

/-- The number that the digits write, if they are digits. -/
def digits? : (soFar : Nat) → List Char → Option Nat
  | n, [] => some n
  | n, c :: s => if c.isDigit then digits? (10 * n + (c.toNat - 48)) s else none

/-- The digits of an unsigned number without its plus sign. -/
def withoutPlus : List Char → List Char
  | '+' :: s => s
  | s => s

/-- The unsigned number that the text writes, if it is below `bound`. -/
def unsigned? (bound : Nat) (text : String) : Option Nat :=
  match withoutPlus text.toList with
  | [] => none
  | s =>
    match digits? 0 s with
    | some n => if n < bound then some n else none
    | none => none

end OpenApi.Text
