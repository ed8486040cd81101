/-
  OpenApi.Decimal.Double — binary64 numbers as bit patterns.

  A `Double` is its 64 bits, so equality is decidable; `same` is the comparison of numbers, under
  which the two zeros agree and no NaN equals itself. `ofDecimal` reads a decimal, rounded to nearest.
-/

namespace OpenApi.Decimal

/-- A binary64 number. -/
structure Double where
  bits : UInt64
  deriving DecidableEq, Repr, Inhabited

namespace Double

/-! ## §1. Parts. -/

/-- The eleven exponent bits. -/
def exponentBits (x : Double) : Nat := ((x.bits >>> 52) &&& 0x7FF).toNat

/-- The fifty-two fraction bits. -/
def fractionBits (x : Double) : Nat := (x.bits &&& 0xFFFFFFFFFFFFF).toNat

/-- Is the sign bit set? -/
def isNegative (x : Double) : Bool := x.bits >>> 63 = 1

/-- Is it neither infinite nor NaN? -/
def isFinite (x : Double) : Bool := x.exponentBits ≠ 0x7FF

/-- Is it not a number? -/
def isNaN (x : Double) : Bool := x.exponentBits = 0x7FF && x.fractionBits ≠ 0

/-- Is it one of the two zeros? -/
def isZero (x : Double) : Bool := x.exponentBits = 0 && x.fractionBits = 0

/-- Equality of numbers: the zeros are equal, a NaN equals nothing. -/
def same (x y : Double) : Bool :=
  !x.isNaN && !y.isNaN && (x.bits = y.bits || (x.isZero && y.isZero))

/-- The number with the opposite sign. -/
def neg (x : Double) : Double := ⟨x.bits ^^^ 0x8000000000000000⟩

/-- Positive infinity. -/
def infinity : Double := ⟨0x7FF0000000000000⟩

/-- The positive quiet NaN. -/
def nan : Double := ⟨0x7FF8000000000000⟩

/-- Positive zero. -/
def zero : Double := ⟨0⟩

/-! ## §2. Reading. -/

/-- The number of decimal digits of `n`, at least one. -/
def digitCount (n : Nat) : Nat := (Nat.toDigits 10 n).length

/-- The double nearest to `m * 10 ^ e`; far outside the range it is zero or infinity. -/
def ofDecimal (m : Nat) (e : Int) : Double :=
  if m = 0 then zero
  else
    -- far outside the range of doubles the power of ten need not be formed
    let top : Int := digitCount m + e
    if top > 400 then infinity
    else if top < -400 then zero
    else ⟨(Float.ofScientific m (e < 0) e.natAbs).toBits⟩

/-- The double nearest to a natural number. -/
def ofNat (n : Nat) : Double := ofDecimal n 0

/-- The product, rounded to nearest. -/
def mul (x y : Double) : Double := ⟨(Float.ofBits x.bits * Float.ofBits y.bits).toBits⟩

/-- The quotient, rounded to nearest. -/
def div (x y : Double) : Double := ⟨(Float.ofBits x.bits / Float.ofBits y.bits).toBits⟩

end Double

end OpenApi.Decimal
