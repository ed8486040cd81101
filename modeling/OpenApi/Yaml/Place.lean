/-
  OpenApi.Yaml.Place — a place in a YAML text, and the steps from it.

  A place knows the text from there on, how many bytes lie before it, and its line and column.
  A line break (carriage return and line feed together count as one) starts a new line; every other
  character moves one column on.
-/

namespace OpenApi.Yaml

/-! ## §1. Classes of characters. -/

/-- Is the character a line break? -/
def isBreak (c : Char) : Bool :=
  c = '\n' || c = '\r' || c = '\u0085' || c = '\u2028' || c = '\u2029'

/-- Is the character a space or a tab? -/
def isGap (c : Char) : Bool := c = ' ' || c = '\t'

/-- Does a word end before this: a space, a tab, a line break or the end of the text? -/
def endsWord : Option Char → Bool
  | none => true
  | some c => isGap c || isBreak c

/-- Does a line end before this: a line break or the end of the text? -/
def endsLine : Option Char → Bool
  | none => true
  | some c => isBreak c

/-- May the character stand in the name of an anchor, a handle or a directive? -/
def isNameChar (c : Char) : Bool := c.isAlphanum || c = '-' || c = '_'

/-- May the character stand in a YAML text at all? -/
def isAllowed (c : Char) : Bool :=
  let n := c.toNat
  n = 0x09 || n = 0x0A || n = 0x0D || (0x20 ≤ n && n ≤ 0x7E) || n = 0x85 ||
    (0xA0 ≤ n && n ≤ 0xD7FF) || (0xE000 ≤ n && n ≤ 0xFFFD) || 0x10000 ≤ n

/-! ## §2. Places. -/

/-- A place in a text. -/
structure Place where
  /-- The text from here on. -/
  rest : List Char
  /-- How many bytes lie before. -/
  index : Nat
  line : Nat
  column : Nat

namespace Place

/-- The start of a text. -/
def start (text : List Char) : Place := ⟨text, 0, 0, 0⟩

/-- The character here. -/
def head? (p : Place) : Option Char := p.rest.head?

/-- The character `n` places further. -/
def at? (p : Place) (n : Nat) : Option Char := p.rest[n]?

/-- Is `c` the character here? -/
def isAt (p : Place) (c : Char) : Bool := p.head? = some c

/-- How many bytes the characters fill in UTF-8. -/
def byteCount (cs : List Char) : Nat :=
  cs.foldl (fun n c => n + c.utf8Size) 0

/-- The place `n` characters further on the same line. -/
def skip (p : Place) (n : Nat) : Place :=
  { p with
    rest := p.rest.drop n
    index := p.index + byteCount (p.rest.take n)
    column := p.column + n }

/-- The characters up to the first that fails `f`, and the place there; `f` fails line breaks. -/
def run (p : Place) (f : Char → Bool) : List Char × Place :=
  let taken := p.rest.takeWhile f
  (taken, p.skip taken.length)

/-- The place after the characters that satisfy `f`, which fails line breaks. -/
def skipWhile (p : Place) (f : Char → Bool) : Place := (p.run f).2

/-- The place after the line break here. -/
def skipBreak (p : Place) : Place :=
  match p.rest with
  | '\r' :: '\n' :: rest => ⟨rest, p.index + 2, p.line + 1, 0⟩
  | c :: rest => if isBreak c then ⟨rest, p.index + c.utf8Size, p.line + 1, 0⟩ else p
  | [] => p

/-- The text of the line break here: a line feed, or the line or paragraph separator itself. -/
def breakText (p : Place) : List Char :=
  match p.rest with
  | '\u2028' :: _ => ['\u2028']
  | '\u2029' :: _ => ['\u2029']
  | c :: _ => if isBreak c then ['\n'] else []
  | [] => []

/-- The place after a comment, if there is one here. -/
def skipComment (p : Place) : Place :=
  if p.isAt '#' then p.skipWhile fun c => !isBreak c else p

/-- Does a line with nothing but `mark` three times, or more after a gap, start here? -/
def atMarker (p : Place) (mark : Char) : Bool :=
  p.column = 0 && p.at? 0 = some mark && p.at? 1 = some mark && p.at? 2 = some mark &&
    endsWord (p.at? 3)

/-- Does a document start or end here? -/
def atDocumentMarker (p : Place) : Bool := p.atMarker '-' || p.atMarker '.'

end Place

end OpenApi.Yaml
