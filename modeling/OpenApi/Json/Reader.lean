/-
  OpenApi.Json.Reader — reading JSON.

  `Json.parse` accepts one value with white space around it. A value may be nested 127 deep. Integers
  from -2^63 to 2^64 - 1 are exact; every other number, and `-0`, is a double: its digits are read into
  a natural number below 2^64 (digits that no longer fit are passed over) and scaled by one
  multiplication or division by a power of ten. A name that is repeated keeps its place and takes the
  last value.
-/
import OpenApi.Json.Value

namespace OpenApi.Json

open Decimal

/-! ## §1. Numbers. -/

/-- One past the greatest integer that is held exactly. -/
def integerBound : Nat := Nat.pow 2 64

/-- The value of a digit. -/
def digitValue (c : Char) : Nat := c.toNat - '0'.toNat

/-- The digits as a natural number. -/
def digitsValue (digits : List Char) : Nat :=
  digits.foldl (fun n c => 10 * n + digitValue c) 0

/-- The significand of a number: as many digits as stay below the bound, and how many that were. -/
def significand : (soFar count : Nat) → List Char → Nat × Nat
  | soFar, count, [] => (soFar, count)
  | soFar, count, c :: rest =>
    let next := 10 * soFar + digitValue c
    if next < integerBound then significand next (count + 1) rest else (soFar, count)

/-- Divides by 10^308 until the exponent is a table's, or the number is zero. -/
def shrink : (steps : Nat) → Double → Int → Double × Int
  | 0, x, e => (x, e)
  | steps + 1, x, e =>
    if e < -308 && !x.isZero then shrink steps (x.div (.ofDecimal 1 308)) (e + 308) else (x, e)

/-- The double `significand * 10 ^ e`, scaled in one step where a double holds the power of ten. -/
def scaled (significand : Nat) (e : Int) : Option Double :=
  let x := Double.ofNat significand
  if e > 308 then
    if x.isZero then some x else none
  else if 0 ≤ e then
    let y := x.mul (.ofDecimal 1 e)
    if y.isFinite then some y else none
  else
    let (y, e) := shrink 4 x e
    if y.isZero then some y else some (y.div (.ofDecimal 1 (-e)))

/-- A number in parts, as written. -/
structure Written where
  negative : Bool
  whole : List Char
  /-- The digits after the point, if there is a point. -/
  fraction : Option (List Char)
  /-- Sign and digits of the exponent, if there is one. -/
  exponent : Option (Bool × List Char)

/-- The double that was written, unless it is too large. -/
def Written.double? (w : Written) : Option Double :=
  -- digits of the whole part that no longer fit count as zeros, those of the fraction not at all
  let (m, wholeTaken) := significand 0 0 w.whole
  let wholeLeft := w.whole.length - wholeTaken
  let (m, taken) :=
    match w.fraction with
    | none => (m, 0)
    | some f => significand m 0 f
  let point : Int := (wholeLeft : Int) - (taken : Int)
  let value :=
    match w.exponent with
    | none => scaled m point
    | some (isNegative, digits) =>
      let e := digitsValue digits
      -- an exponent this large decides alone, unless the digits are all zero
      if Nat.pow 2 31 ≤ e then
        if isNegative || m = 0 then some Double.zero else none
      else scaled m (if isNegative then point - (e : Int) else point + (e : Int))
  value.map fun x => if w.negative then x.neg else x

/-- The number that was written, unless it is too large. -/
def Written.number? (w : Written) : Option Number :=
  let n := digitsValue w.whole
  if w.fraction.isNone && w.exponent.isNone then
    if w.negative then
      -- only a double can tell a negative zero from zero
      if 0 < n && n ≤ Nat.pow 2 63 then some (.int (-(n : Int))) else w.double?.map .double
    else if n < integerBound then some (.int n)
    else w.double?.map .double
  else w.double?.map .double

/-- Splits off the digits at the start. -/
def takeDigits (s : List Char) : List Char × List Char :=
  (s.takeWhile Char.isDigit, s.dropWhile Char.isDigit)

/-- Reads a fraction: a point and at least one digit. -/
def readFraction : List Char → Option (Option (List Char) × List Char)
  | '.' :: s =>
    match takeDigits s with
    | ([], _) => none
    | (digits, rest) => some (some digits, rest)
  | s => some (none, s)

/-- Reads an exponent: `e`, a sign or none, at least one digit. -/
def readExponent : List Char → Option (Option (Bool × List Char) × List Char)
  | c :: s =>
    if c = 'e' || c = 'E' then
      let (isNegative, s) : Bool × List Char :=
        match s with
        | '+' :: s => (false, s)
        | '-' :: s => (true, s)
        | s => (false, s)
      match takeDigits s with
      | ([], _) => none
      | (digits, rest) => some (some (isNegative, digits), rest)
    else some (none, c :: s)
  | [] => some (none, [])

/-- Reads a number: no leading zero, no leading plus sign. -/
def readNumber (s : List Char) : Option (Number × List Char) := do
  let (negative, s) : Bool × List Char :=
    match s with
    | '-' :: s => (true, s)
    | s => (false, s)
  let (whole, s) := takeDigits s
  match whole with
  | [] => none
  | '0' :: _ :: _ => none
  | _ =>
    let (fraction, s) ← readFraction s
    let (exponent, s) ← readExponent s
    let n ← Written.number? ⟨negative, whole, fraction, exponent⟩
    pure (n, s)

/-! ## §2. Strings. -/

/-- The value of a hexadecimal digit. -/
def hexValue? (c : Char) : Option Nat :=
  if c.isDigit then some (c.toNat - '0'.toNat)
  else if 'a' ≤ c && c ≤ 'f' then some (c.toNat - 'a'.toNat + 10)
  else if 'A' ≤ c && c ≤ 'F' then some (c.toNat - 'A'.toNat + 10)
  else none

/-- The value of four hexadecimal digits. -/
def hex4? (a b c d : Char) : Option Nat := do
  let a ← hexValue? a
  let b ← hexValue? b
  let c ← hexValue? c
  let d ← hexValue? d
  pure (((a * 16 + b) * 16 + c) * 16 + d)

/-- The character of an escape of one letter. -/
def escapeLetter? : Char → Option Char
  | '"' => some '"'
  | '\\' => some '\\'
  | '/' => some '/'
  | 'b' => some '\x08'
  | 'f' => some '\x0c'
  | 'n' => some '\n'
  | 'r' => some '\r'
  | 't' => some '\t'
  | _ => none

/-- The character of one 16-bit unit that is no surrogate. -/
def unitChar? (n : Nat) : Option Char :=
  if 0xD800 ≤ n && n ≤ 0xDFFF then none else some (Char.ofNat n)

/-- The character of a surrogate pair. -/
def pairChar? (high low : Nat) : Option Char :=
  if 0xD800 ≤ high && high ≤ 0xDBFF && 0xDC00 ≤ low && low ≤ 0xDFFF then
    some (Char.ofNat (0x10000 + (high - 0xD800) * 0x400 + (low - 0xDC00)))
  else none

/-- Reads the characters of a string up to its closing quote. -/
def readChars : List Char → Option (List Char × List Char)
  | [] => none
  | '"' :: rest => some ([], rest)
  | '\\' :: 'u' :: a :: b :: c :: d :: rest => do
    let n ← hex4? a b c d
    match unitChar? n with
    | some x =>
      let (xs, rest) ← readChars rest
      pure (x :: xs, rest)
    | none =>
      -- half of a pair stands for a character only together with the other half
      match rest with
      | '\\' :: 'u' :: e :: f :: g :: h :: rest =>
        let low ← hex4? e f g h
        let x ← pairChar? n low
        let (xs, rest) ← readChars rest
        pure (x :: xs, rest)
      | _ => none
  | '\\' :: c :: rest => do
    let x ← escapeLetter? c
    let (xs, rest) ← readChars rest
    pure (x :: xs, rest)
  | c :: rest =>
    if c.toNat < 0x20 then none
    else do
      let (xs, rest) ← readChars rest
      pure (c :: xs, rest)

/-! ## §3. Values. -/

/-- Is the character white space between tokens? -/
def isSpace (c : Char) : Bool := c = ' ' || c = '\t' || c = '\n' || c = '\r'

/-- The text after the white space at its start. -/
def skipSpace (s : List Char) : List Char := s.dropWhile isSpace

/-- The text after `word`, if it starts with it. -/
def keyword? (word : List Char) (value : Json) (s : List Char) : Option (Json × List Char) :=
  if word.isPrefixOf s then some (value, s.drop word.length) else none

mutual

/-- Reads a value at most `depth` deep. -/
def readValue : (steps depth : Nat) → List Char → Option (Json × List Char)
  | 0, _, _ => none
  | steps + 1, depth, s =>
    match skipSpace s with
    | '"' :: rest => (readChars rest).map fun (cs, rest) => (.string (String.ofList cs), rest)
    | '[' :: rest =>
      match depth with
      | 0 => none
      | depth + 1 =>
        match skipSpace rest with
        | ']' :: rest => some (.array [], rest)
        | rest => (readItems steps depth rest).map fun (items, rest) => (.array items, rest)
    | '\x7b' :: rest =>
      match depth with
      | 0 => none
      | depth + 1 =>
        match skipSpace rest with
        | '\x7d' :: rest => some (.object [], rest)
        | rest => (readMembers steps depth [] rest).map fun (members, rest) => (.object members, rest)
    | 't' :: rest => keyword? ['r', 'u', 'e'] (.bool true) rest
    | 'f' :: rest => keyword? ['a', 'l', 's', 'e'] (.bool false) rest
    | 'n' :: rest => keyword? ['u', 'l', 'l'] .null rest
    | s => (readNumber s).map fun (n, rest) => (.number n, rest)

/-- Reads the items of an array, at least one, and its closing bracket. -/
def readItems : (steps depth : Nat) → List Char → Option (List Json × List Char)
  | 0, _, _ => none
  | steps + 1, depth, s =>
    match readValue steps depth s with
    | none => none
    | some (item, rest) =>
      match skipSpace rest with
      | ',' :: rest => (readItems steps depth rest).map fun (items, rest) => (item :: items, rest)
      | ']' :: rest => some ([item], rest)
      | _ => none

/-- Reads the members of an object, at least one, and its closing brace. -/
def readMembers : (steps depth : Nat) → List (String × Json) → List Char →
    Option (List (String × Json) × List Char)
  | 0, _, _, _ => none
  | steps + 1, depth, members, s =>
    match skipSpace s with
    | '"' :: rest =>
      match readChars rest with
      | none => none
      | some (name, rest) =>
        match skipSpace rest with
        | ':' :: rest =>
          match readValue steps depth rest with
          | none => none
          | some (value, rest) =>
            let members := setMember members (String.ofList name) value
            match skipSpace rest with
            | ',' :: rest => readMembers steps depth members rest
            | '\x7d' :: rest => some (members, rest)
            | _ => none
        | _ => none
    | _ => none

end

/-- The greatest nesting of arrays and objects. -/
def maxDepth : Nat := 127

/-- Reads a text that holds one value. Every step takes a character, so the steps suffice. -/
def parse (text : String) : Option Json :=
  let s := text.toList
  match readValue (2 * s.length + 2) maxDepth s with
  | some (value, rest) => if (skipSpace rest).isEmpty then some value else none
  | none => none

end OpenApi.Json
