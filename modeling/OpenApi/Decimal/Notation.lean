/-
  OpenApi.Decimal.Notation — how the digits of a double are laid out.

  A number whose leading digit stands at 10^-5 to 10^15 is written positionally, with `.0` after an
  integer; any other has one digit before the point and an exponent. Two styles differ in whether a
  positive exponent has a plus sign.
-/
import OpenApi.Decimal.Shortest

namespace OpenApi.Decimal

/-- Decisions on the layout of a double. -/
structure Notation where
  /-- The least exponent of the leading digit that is written positionally. -/
  plainFrom : Int
  /-- The least exponent above `plainFrom` that is not written positionally. -/
  plainBelow : Int
  /-- What stands between `e` and the digits of an exponent that is not negative. -/
  plus : String

namespace Notation

/-- `count` zeros. -/
def zeros (count : Nat) : String := String.ofList (List.replicate count '0')

/-- The layout of `digits * 10 ^ exponent`. -/
def layout (style : Notation) (d : Digits) : String :=
  let text := Nat.toDigits 10 d.digits
  -- how many digits stand before the point; the leading digit has one power of ten less
  let point : Int := text.length + d.exponent
  let lead := point - 1
  if style.plainFrom ≤ lead && lead < style.plainBelow then
    if 0 ≤ d.exponent then String.ofList text ++ zeros d.exponent.toNat ++ ".0"
    else if 0 < point then
      String.ofList (text.take point.toNat) ++ "." ++ String.ofList (text.drop point.toNat)
    else "0." ++ zeros (-point).toNat ++ String.ofList text
  else
    let mantissa :=
      match text with
      | [] => ""
      | [c] => String.ofList [c]
      | c :: rest => String.ofList (c :: '.' :: rest)
    let sign := if lead < 0 then "-" else style.plus
    mantissa ++ "e" ++ sign ++ toString lead.natAbs

/-- The text of a finite double: the fewest digits that read back, laid out. -/
def finiteText (style : Notation) (x : Double) : String :=
  let sign := if x.isNegative then "-" else ""
  if x.isZero then sign ++ "0.0" else sign ++ style.layout x.magnitude.shortest

end Notation

end OpenApi.Decimal
