/-
  OpenApi.Url.Percent — percent encoding.

  A character that may not stand for itself is written as its UTF-8 bytes, each as `%` and two upper-case
  hexadecimal digits. Which characters those are depends on the place in the URL. A `%` always stands for
  itself, so text that is encoded already stays as it is.
-/
import OpenApi.Text.Utf8

namespace OpenApi.Url

/-! ## §1. Sets of characters. -/

/-- Control characters, and all that is not ASCII: these are encoded everywhere. -/
def isControl (c : Char) : Bool := c.toNat < 0x20 || 0x7F ≤ c.toNat

/-- Is the character encoded in a fragment? -/
def encodesInFragment (c : Char) : Bool :=
  isControl c || [' ', '"', '<', '>', '\x60'].contains c

/-- Is the character encoded in a path? -/
def encodesInPath (c : Char) : Bool :=
  encodesInFragment c || ['#', '?', '\x7b', '\x7d'].contains c

/-- Is the character encoded in a user name or password? -/
def encodesInUser (c : Char) : Bool :=
  encodesInPath c || ['/', ':', ';', '=', '@', '[', '\\', ']', '^', '|'].contains c

/-- Is the character encoded in one segment of a file path? -/
def encodesInSegment (c : Char) : Bool := encodesInPath c || ['/', '%', '\\'].contains c

/-- Is the character encoded in a query? The special schemes encode the single quote as well. -/
def encodesInQuery (special : Bool) (c : Char) : Bool :=
  isControl c || [' ', '"', '#', '<', '>'].contains c || (special && c = '\'')

/-! ## §2. Encoding and decoding. -/

/-- An upper-case hexadecimal digit. -/
def hexDigit (n : Nat) : Char := if n < 10 then Char.ofNat (48 + n) else Char.ofNat (55 + n)

/-- A byte in percent encoding. -/
def encodedByte (b : UInt8) : List Char := ['%', hexDigit (b.toNat / 16), hexDigit (b.toNat % 16)]

/-- The text with the characters of a set encoded. -/
def encoded (encodes : Char → Bool) (s : List Char) : List Char :=
  s.flatMap fun c => if encodes c then (String.utf8EncodeChar c).flatMap encodedByte else [c]

/-- The value of a hexadecimal digit. -/
def hexValue? (b : UInt8) : Option UInt8 :=
  if 48 ≤ b && b ≤ 57 then some (b - 48)
  else if 65 ≤ b && b ≤ 70 then some (b - 55)
  else if 97 ≤ b && b ≤ 102 then some (b - 87)
  else none

/-- The bytes with percent encoding undone; a `%` without two digits stands for itself. -/
def decodedBytes : List UInt8 → List UInt8
  | 37 :: high :: low :: rest =>
    match hexValue? high, hexValue? low with
    | some h, some l => (h * 16 + l) :: decodedBytes rest
    | _, _ => 37 :: decodedBytes (high :: low :: rest)
  | b :: rest => b :: decodedBytes rest
  | [] => []

/-- The bytes that a text writes in percent encoding. -/
def decoded (s : List Char) : List UInt8 := decodedBytes (Text.Utf8.bytes s)

end OpenApi.Url
