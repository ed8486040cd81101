/-
  OpenApi.Toml.Scalar — numbers, dates and times of TOML.

  Underscores stand between digits; one may also follow a sign. A decimal number has no leading zero; other
  bases have a mark and no sign, and their digits may be missing. In a whole number with underscores only those
  are looked at, and letters count as digits there. A float has a fraction, an exponent or both, or is `inf` or
  `nan`. Dates are checked against the calendar; seconds may be left out, and up to 60 of them may be counted.
-/
import OpenApi.Text.Cut
import OpenApi.Text.Numeral

namespace OpenApi.Toml

open Text

/-! ## §1. Numbers. -/

/-- Is it nothing, or a run of digits with single underscores between them? -/
def isRun (isDigit : Char → Bool) (s : List Char) : Bool :=
  s.isEmpty || (pieces (· = '_') s).all fun p => !p.isEmpty && p.all isDigit

/-- Does each underscore stand between two digits, or between a sign at the start and a digit? -/
def underscoresFit (isDigit : Char → Bool) (s : List Char) : Bool :=
  match pieces (· = '_') s with
  | [_] => true
  | parts =>
    parts.head?.any (fun p => !p.isEmpty) && parts.tail.all (fun p => p.head?.any isDigit) &&
      -- a first part of one character is a digit or a sign
      parts.dropLast.all fun p => p.length = 1 || p.getLast?.any isDigit

/-- The text without its sign. -/
def withoutSign : List Char → List Char
  | '+' :: s => s
  | '-' :: s => s
  | s => s

/-- Is it a hexadecimal digit? -/
def isHexDigit (c : Char) : Bool :=
  c.isDigit || ('a' ≤ c && c ≤ 'f') || ('A' ≤ c && c ≤ 'F')

/-- Does the character make a number a float? -/
def marksFloat (c : Char) : Bool := c = '.' || c = 'e' || c = 'E'

/-- Is it a whole decimal number? Without underscores it holds digits only. -/
def isWhole (s : List Char) : Bool :=
  let number := withoutSign s
  match number, number.dropWhile Char.isDigit with
  | [], _ => false
  | ['0'], _ => true
  | '0' :: _, _ => false
  | _, [] => true
  | _, '_' :: rest => !rest.any marksFloat && underscoresFit isHexDigit s
  | _, _ => false

/-- Is it an integer? -/
def isInteger : List Char → Bool
  | '0' :: 'x' :: s => isRun isHexDigit s
  | '0' :: 'o' :: s => isRun (fun c => '0' ≤ c && c ≤ '7') s
  | '0' :: 'b' :: s => isRun (fun c => c = '0' || c = '1') s
  | s => isWhole s

/-- Is it a digit or an underscore? -/
def inDigits (c : Char) : Bool := c.isDigit || c = '_'

/-- The text after the digits and underscores it starts with, of which one at least is a digit. -/
def afterDigits? (s : List Char) : Option (List Char) :=
  if (s.takeWhile inDigits).any Char.isDigit then some (s.dropWhile inDigits) else none

/-- The text after the fraction it starts with, if it starts with one. -/
def afterFraction? : List Char → Option (List Char)
  | '.' :: s => afterDigits? s
  | s => some s

/-- The text after the exponent it starts with, if it starts with one. -/
def afterExponent? : List Char → Option (List Char)
  | c :: s => if c = 'e' || c = 'E' then afterDigits? (withoutSign s) else some (c :: s)
  | [] => some []

/-- Does the number start with a zero and go on with more digits? -/
def hasLeadingZero (s : List Char) : Bool :=
  s.head? = some '0' && 2 ≤ ((s.takeWhile inDigits).filter Char.isDigit).length

/-- Is it a float? -/
def isFloat (s : List Char) : Bool :=
  let number := withoutSign s
  number = "inf".toList || number = "nan".toList ||
    (number.any marksFloat && !hasLeadingZero number &&
      ((afterDigits? number).bind afterFraction?).bind afterExponent? = some [] &&
      underscoresFit Char.isDigit s)

/-! ## §2. Dates and times. -/

/-- The number that two digits write. -/
def pair? (a b : Char) : Option Nat := digits? 0 [a, b]

/-- How many days a month has. -/
def daysIn (year month : Nat) : Nat :=
  if month = 2 then
    if year % 4 = 0 && (year % 100 ≠ 0 || year % 400 = 0) then 29 else 28
  else if [4, 6, 9, 11].contains month then 30
  else 31

/-- The text after the date it starts with. -/
def afterDate? : List Char → Option (List Char)
  | y₁ :: y₂ :: y₃ :: y₄ :: '-' :: m₁ :: m₂ :: '-' :: d₁ :: d₂ :: rest => do
    let year ← digits? 0 [y₁, y₂, y₃, y₄]
    let month ← pair? m₁ m₂
    let day ← pair? d₁ d₂
    if 1 ≤ month && month ≤ 12 && 1 ≤ day && day ≤ daysIn year month then some rest else none
  | _ => none

/-- The text after the hour and minute it starts with. -/
def afterMinute? : List Char → Option (List Char)
  | h₁ :: h₂ :: ':' :: m₁ :: m₂ :: rest => do
    let hour ← pair? h₁ h₂
    let minute ← pair? m₁ m₂
    if hour ≤ 23 && minute ≤ 59 then some rest else none
  | _ => none

/-- The text after the seconds it starts with, if it starts with any. -/
def afterSecond? : List Char → Option (List Char)
  | ':' :: a :: b :: '.' :: c :: rest => do
    let second ← pair? a b
    if second ≤ 60 && c.isDigit then some (rest.dropWhile Char.isDigit) else none
  | ':' :: a :: b :: rest => do
    let second ← pair? a b
    if second ≤ 60 then some rest else none
  | ':' :: _ => none
  | s => some s

/-- The text after the time it starts with. -/
def afterTime? (s : List Char) : Option (List Char) := (afterMinute? s).bind afterSecond?

/-- Is it an offset from universal time, or nothing? -/
def isOffset : List Char → Bool
  | [] | ['Z'] | ['z'] => true
  | sign :: rest => (sign = '+' || sign = '-') && afterMinute? rest = some []

/-- Is it a date, a time, or both with or without an offset? -/
def isMoment (s : List Char) : Bool :=
  match afterDate? s with
  | some [] => true
  | some (c :: rest) =>
    (c = 'T' || c = 't' || c = ' ') &&
      (match afterTime? rest with
        | some offset => isOffset offset
        | none => false)
  | none => afterTime? s = some []

/-- Is it a number, a date or a time? -/
def isScalar (s : List Char) : Bool := isInteger s || isFloat s || isMoment s

end OpenApi.Toml
