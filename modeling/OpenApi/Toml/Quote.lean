/-
  OpenApi.Toml.Quote — strings of TOML.

  A string in double quotes has escapes, one in single quotes has none. In triple quotes it may span lines; a
  line feed right after the opening quotes is not part of it, and a backslash at the end of a line takes the
  white space up to the next word away.
-/
import OpenApi.Json.Reader

namespace OpenApi.Toml

/-! ## §1. Characters. -/

/-- May the character stand in a string or comment as itself? -/
def isPlain (c : Char) : Bool := c = '\t' || (0x20 ≤ c.toNat && c.toNat ≠ 0x7F)

/-- Is it a space or a tab? -/
def isGap (c : Char) : Bool := c = ' ' || c = '\t'

/-- The text after the line break it starts with. -/
def afterBreak? : List Char → Option (List Char)
  | '\n' :: s => some s
  | '\r' :: '\n' :: s => some s
  | _ => none

/-- The text after the spaces, tabs and line breaks it starts with. -/
def skipBlank : List Char → List Char
  | '\r' :: '\n' :: s => skipBlank s
  | c :: s => if isGap c || c = '\n' then skipBlank s else c :: s
  | [] => []

/-- The number that hexadecimal digits write. -/
def hexNumber? (soFar : Nat) : List Char → Option Nat
  | [] => some soFar
  | c :: s => (Json.hexValue? c).bind fun d => hexNumber? (16 * soFar + d) s

/-- The character with a code point in hexadecimal digits, which must not be half of a pair. -/
def codePoint? (digits : List Char) : Option Char := do
  let n ← hexNumber? 0 digits
  if n < 0xD800 || (0xE000 ≤ n && n < 0x110000) then some (Char.ofNat n) else none

/-- The character of an escape of one letter. -/
def escapeLetter? : Char → Option Char
  | 'b' => some '\x08'
  | 't' => some '\t'
  | 'n' => some '\n'
  | 'f' => some '\x0c'
  | 'r' => some '\r'
  | 'e' => some '\x1b'
  | '"' => some '"'
  | '\\' => some '\\'
  | _ => none

/-- Reads an escape after its backslash. -/
def readEscape : List Char → Option (Char × List Char)
  | 'x' :: a :: b :: s => (codePoint? [a, b]).map fun c => (c, s)
  | 'u' :: a :: b :: c :: d :: s => (codePoint? [a, b, c, d]).map fun x => (x, s)
  | 'U' :: a :: b :: c :: d :: e :: f :: g :: h :: s =>
    (codePoint? [a, b, c, d, e, f, g, h]).map fun x => (x, s)
  | c :: s => (escapeLetter? c).map fun x => (x, s)
  | [] => none

/-! ## §2. Strings in one line. -/

/-- Reads up to the closing double quote. -/
def readBasic : (steps : Nat) → List Char → Option (List Char × List Char)
  | 0, _ => none
  | _ + 1, [] => none
  | _ + 1, '"' :: s => some ([], s)
  | steps + 1, '\\' :: s => do
    let (c, s) ← readEscape s
    let (cs, s) ← readBasic steps s
    pure (c :: cs, s)
  | steps + 1, c :: s =>
    if isPlain c then (readBasic steps s).map fun (cs, s) => (c :: cs, s) else none

/-- Reads up to the closing single quote. -/
def readLiteral : List Char → Option (List Char × List Char)
  | [] => none
  | '\'' :: s => some ([], s)
  | c :: s => if isPlain c then (readLiteral s).map fun (cs, s) => (c :: cs, s) else none

/-! ## §3. Strings over lines. -/

/-- The quotes at the end of a string in triple quotes that belong to it, and the text after the string:
up to two more quotes may stand before the closing ones. -/
def closing? (quote : Char) (s : List Char) : Option (List Char × List Char) :=
  let count := min (s.takeWhile (· = quote)).length 5
  if 3 ≤ count then some (List.replicate (count - 3) quote, s.drop count) else none

/-- Reads up to the closing triple quotes. -/
def readLong (quote : Char) (escapes : Bool) : (steps : Nat) → List Char →
    Option (List Char × List Char)
  | 0, _ => none
  | _ + 1, [] => none
  | steps + 1, c :: s =>
    if c = quote then
      -- fewer than three quotes belong to the string
      match closing? quote (c :: s) with
      | some found => some found
      | none => (readLong quote escapes steps s).map fun (cs, s) => (c :: cs, s)
    else if c = '\\' && escapes then
      match afterBreak? (s.dropWhile isGap) with
      | some s => readLong quote escapes steps (skipBlank s)
      | none => do
        let (x, s) ← readEscape s
        let (cs, s) ← readLong quote escapes steps s
        pure (x :: cs, s)
    else
      match afterBreak? (c :: s) with
      | some rest =>
        (readLong quote escapes steps rest).map fun (cs, after) =>
          ((if c = '\r' then ['\r', '\n'] else ['\n']) ++ cs, after)
      | none =>
        if isPlain c then (readLong quote escapes steps s).map fun (cs, s) => (c :: cs, s) else none

/-- Reads a string that spans lines after its opening quotes. -/
def readLines (quote : Char) (escapes : Bool) (s : List Char) : Option (List Char × List Char) :=
  let s := (afterBreak? s).getD s
  readLong quote escapes (s.length + 1) s

/-- Reads a string in one line, if the text starts with a quote. -/
def readQuoted : List Char → Option (List Char × List Char)
  | '"' :: s => readBasic (s.length + 1) s
  | '\'' :: s => readLiteral s
  | _ => none

/-- Reads a string, if the text starts with a quote. -/
def readString : List Char → Option (List Char × List Char)
  | '"' :: '"' :: '"' :: s => readLines '"' true s
  | '\'' :: '\'' :: '\'' :: s => readLines '\'' false s
  | s => readQuoted s

end OpenApi.Toml
