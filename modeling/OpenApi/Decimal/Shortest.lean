/-
  OpenApi.Decimal.Shortest — the fewest digits that read back.

  A finite double is `m * 2 ^ q`. The reals that round to it form an interval, whose ends belong to it
  exactly if `m` is even. `shortest` takes the coarsest decimal grid with a point in that interval and,
  on it, the point closest to the number; both neighbours of the number on each grid are tried.
-/
import OpenApi.Decimal.Double

namespace OpenApi.Decimal

/-! ## §1. The rounding interval. -/

/-- A positive binary number `m * 2 ^ q`. -/
structure Binary where
  m : Nat
  q : Int
  /-- The gap to the number below is half the gap to the number above. -/
  narrowBelow : Bool

/-- The absolute value of a finite double. -/
def Double.magnitude (x : Double) : Binary :=
  if x.exponentBits = 0 then ⟨x.fractionBits, -1074, false⟩
  else ⟨Nat.pow 2 52 + x.fractionBits, (x.exponentBits : Int) - 1075,
    x.fractionBits = 0 && x.exponentBits > 1⟩

/-- A decimal `digits * 10 ^ exponent`. -/
structure Digits where
  digits : Nat
  exponent : Int
  deriving DecidableEq, Repr

/-- Compares `a * 10 ^ i` with `n * 2 ^ j`, exactly. -/
def compareScaled (a : Nat) (i : Int) (n : Nat) (j : Int) : Ordering :=
  compare (a * Nat.pow 10 i.toNat * Nat.pow 2 (-j).toNat)
    (n * Nat.pow 2 j.toNat * Nat.pow 10 (-i).toNat)

/-- Does the decimal lie among the reals that round to `x`? -/
def Binary.readsBack (x : Binary) (d : Digits) : Bool :=
  let low := if x.narrowBelow then 4 * x.m - 1 else 4 * x.m - 2
  let endsBelong := x.m % 2 = 0
  let atLow := compareScaled d.digits d.exponent low (x.q - 2)
  let atHigh := compareScaled d.digits d.exponent (4 * x.m + 2) (x.q - 2)
  (atLow == .gt || (endsBelong && atLow == .eq)) && (atHigh == .lt || (endsBelong && atHigh == .eq))

/-! ## §2. The search. -/

/-- The quotient of `x` by `10 ^ e`, rounded down. -/
def Binary.floorScaled (x : Binary) (e : Int) : Nat :=
  (x.m * Nat.pow 2 x.q.toNat * Nat.pow 10 (-e).toNat) /
    (Nat.pow 2 (-x.q).toNat * Nat.pow 10 e.toNat)

/-- The number of digits of `x` in front of the point; zero or less for `x < 1/10`. -/
def Binary.scale (x : Binary) : Int :=
  -- the guess is too low by three at most, and each step raises it as long as it is too low
  let guess : Int := ((x.m.log2 : Int) + x.q) * 30103 / 100000 - 1
  (List.range 4).foldl (fun k _ => if compareScaled 1 k x.m x.q == .gt then k else k + 1) guess

/-- The point of the grid `10 ^ e` that reads back and is closest to `x`, ties to even. -/
def Binary.onGrid? (x : Binary) (e : Int) : Option Digits :=
  let below := x.floorScaled e
  let low : Digits := ⟨below, e⟩
  let high : Digits := ⟨below + 1, e⟩
  match x.readsBack low, x.readsBack high with
  | true, true =>
    -- where `x` lies half-way, the even digit wins
    match compareScaled (2 * below + 1) e (2 * x.m) x.q with
    | .lt => some high
    | .gt => some low
    | .eq => if below % 2 = 0 then some low else some high
  | true, false => some low
  | false, true => some high
  | false, false => none

/-- The exact decimal value of `x`. -/
def Binary.exact (x : Binary) : Digits :=
  if 0 ≤ x.q then ⟨x.m * Nat.pow 2 x.q.toNat, 0⟩
  else ⟨x.m * Nat.pow 5 (-x.q).toNat, x.q⟩

/-- The decimal with the factors ten of its digits moved into the exponent. -/
def Digits.stripped (d : Digits) : Digits :=
  let zeros := ((Nat.toDigits 10 d.digits).reverse.takeWhile (· = '0')).length
  if d.digits = 0 then ⟨0, 0⟩ else ⟨d.digits / Nat.pow 10 zeros, d.exponent + zeros⟩

/-- The fewest digits that read back as `x`, which is not zero. -/
def Binary.shortest (x : Binary) : Digits :=
  let k := x.scale
  (((List.range 17).findSome? fun n => x.onGrid? (k - (n + 1 : Nat))).getD x.exact).stripped

end OpenApi.Decimal
