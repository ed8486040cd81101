/-
  OpenApi.Operation.Status — the keys of responses.

  A status is a code from 100 to 599, a range such as `2XX` in either case, or `default`.
-/

namespace OpenApi

/-- The status of a response. -/
inductive StatusCode
  | code (value : Nat)
  /-- All codes with the same first digit. -/
  | range (digit : Nat)
  | default
  deriving DecidableEq, Repr

namespace StatusCode

/-- Is it the letter x, in either case? -/
def isWild (c : Char) : Bool := c = 'X' || c = 'x'

/-- The value of a digit. -/
def digitOf (c : Char) : Nat := c.toNat - 48

/-- Reads a status. -/
def parse (text : String) : Option StatusCode :=
  if text = "default" then some default
  else
    match text.toList with
    | [a, b, c] =>
      if '1' ≤ a && a ≤ '5' then
        if isWild b && isWild c then some (range (digitOf a))
        else if b.isDigit && c.isDigit then
          some (code (digitOf a * 100 + digitOf b * 10 + digitOf c))
        else none
      else none
    | _ => none

/-- The first digit of a code or range. -/
def leading : StatusCode → Option Nat
  | code value => some (value / 100)
  | range digit => some digit
  | default => none

/-- The text of a status. -/
def text : StatusCode → String
  | code value => toString value
  | range digit => toString digit ++ "XX"
  | default => "default"

end StatusCode

end OpenApi
