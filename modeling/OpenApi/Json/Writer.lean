/-
  OpenApi.Json.Writer — writing JSON without white space.

  Quotes and backslashes get a backslash; line feed, tab, carriage return, backspace and form feed have
  a letter; other control characters are written as `\u00xx`; everything else stands for itself. A
  double has a plus sign in a positive exponent; NaN and the infinities, which JSON lacks, are `null`.
-/
import OpenApi.Json.Value
import OpenApi.Decimal.Notation

namespace OpenApi.Json

open Decimal

/-! ## §1. Numbers and strings. -/

/-- Doubles in JSON: a positive exponent has a plus sign. -/
def doubleNotation : Notation where
  plainFrom := -5
  plainBelow := 16
  plus := "+"

/-- The text of a number. -/
def numberText : Number → String
  | .int value => toString value
  | .double value => if value.isFinite then doubleNotation.finiteText value else "null"

/-- A hexadecimal digit below sixteen. -/
def hexDigit (n : Nat) : Char := if n < 10 then Char.ofNat (48 + n) else Char.ofNat (87 + n)

/-- The written form of one character of a string. -/
def writtenChar (c : Char) : List Char :=
  match c with
  | '"' => ['\\', '"']
  | '\\' => ['\\', '\\']
  | '\n' => ['\\', 'n']
  | '\t' => ['\\', 't']
  | '\r' => ['\\', 'r']
  | '\x08' => ['\\', 'b']
  | '\x0c' => ['\\', 'f']
  | c =>
    if c.toNat < 0x20 then
      ['\\', 'u', '0', '0', hexDigit (c.toNat / 16), hexDigit (c.toNat % 16)]
    else [c]

/-- A string with its quotes. -/
def stringText (s : String) : String :=
  String.ofList ('"' :: s.toList.flatMap writtenChar ++ ['"'])

/-! ## §2. Values. -/

mutual

/-- The compact text of a value. -/
def compact : Json → String
  | .null => "null"
  | .bool true => "true"
  | .bool false => "false"
  | .number n => numberText n
  | .string s => stringText s
  | .array items => "[" ++ compactItems items ++ "]"
  | .object members => "\x7b" ++ compactMembers members ++ "\x7d"

/-- The compact texts of items with commas between them. -/
def compactItems : List Json → String
  | [] => ""
  | [item] => compact item
  | item :: next :: rest => compact item ++ "," ++ compactItems (next :: rest)

/-- The compact texts of members with commas between them. -/
def compactMembers : List (String × Json) → String
  | [] => ""
  | [(name, value)] => stringText name ++ ":" ++ compact value
  | (name, value) :: next :: rest =>
    stringText name ++ ":" ++ compact value ++ "," ++ compactMembers (next :: rest)

end

end OpenApi.Json
