/-
  OpenApi.Toml.Reader — reading TOML.

  A document is a list of lines: key and value, a header in brackets, or nothing, each perhaps with a
  comment. Keys stand for the table of the last header, or for the root before the first. No key has more
  than 80 parts, and no more than 80 arrays and tables in line are nested.
-/
import OpenApi.Toml.Quote
import OpenApi.Toml.Scalar
import OpenApi.Toml.Value

namespace OpenApi.Toml

open Text

/-! ## §1. Between values. -/

/-- The text after the spaces and tabs it starts with. -/
def skipGap (s : List Char) : List Char := s.dropWhile isGap

/-- The text after the comment it starts with, if it starts with one. -/
def skipComment : List Char → List Char
  | '#' :: s => s.dropWhile isPlain
  | s => s

/-- The text after the end of a line: blanks, perhaps a comment, a line break or nothing. -/
def endLine? (s : List Char) : Option (List Char) :=
  match skipComment (skipGap s) with
  | [] => some []
  | s => afterBreak? s

/-- The text after blanks, comments and line breaks. -/
def skipLines : (steps : Nat) → List Char → List Char
  | 0, s => s
  | steps + 1, s =>
    let s := skipComment (skipGap s)
    match afterBreak? s with
    | some s => skipLines steps s
    | none => s

/-- The text after all blanks, comments and line breaks it starts with. -/
def skipAll (s : List Char) : List Char := skipLines s.length s

/-! ## §2. Keys. -/

/-- May the character stand in a key without quotes? -/
def isKeyChar (c : Char) : Bool := c.isAlphanum || c = '-' || c = '_'

/-- Reads one part of a key. -/
def readPart (s : List Char) : Option (String × List Char) :=
  match s.takeWhile isKeyChar with
  | [] => (readQuoted s).map fun (cs, s) => (String.ofList cs, s)
  | cs => some (String.ofList cs, s.dropWhile isKeyChar)

/-- How many parts a key may have, and how deep values may be nested. -/
def limit : Nat := 80

/-- Reads at most `parts` parts of a key with points between them. -/
def readParts : (parts : Nat) → List Char → Option (List String × List Char)
  | 0, _ => none
  | parts + 1, s => do
    let (part, s) ← readPart (skipGap s)
    match skipGap s with
    | '.' :: s =>
      let (more, s) ← readParts parts s
      pure (part :: more, s)
    | s => pure ([part], s)

/-- Reads a key, and the gap after it. -/
def readKey (s : List Char) : Option (List String × List Char) := readParts limit s

/-! ## §3. Values. -/

/-- Does a number, date or word go on with the character? -/
def isScalarChar (c : Char) : Bool :=
  !isGap c && !(['\n', '\r', '#', ',', '=', '[', ']', '\x7b', '\x7d'].contains c)

/-- Is it a date alone? -/
def isDate (s : List Char) : Bool := afterDate? s = some []

/-- The characters of a number, date or word, and the text after them. A date may have a time after one
space. -/
def cutScalar (s : List Char) : List Char × List Char :=
  let word := s.takeWhile isScalarChar
  let rest := s.dropWhile isScalarChar
  match rest with
  | ' ' :: c :: more =>
    -- a date followed by a space and a digit goes on as a time
    if isDate word && c.isDigit then
      (word ++ ' ' :: (c :: more).takeWhile isScalarChar, (c :: more).dropWhile isScalarChar)
    else (word, rest)
  | _ => (word, rest)

/-- Reads a truth value, a number, a date or a time. -/
def readScalar (s : List Char) : Option (Value × List Char) :=
  let (word, rest) := cutScalar s
  if word = "true".toList then some (.boolean true, rest)
  else if word = "false".toList then some (.boolean false, rest)
  else if isScalar word then some (.scalar, rest)
  else none

/-- Adds a value under a key of one or more parts. -/
def addKey (key : List String) (value : Value) (entries : Entries) : Option Entries :=
  match key.getLast? with
  | some last => addDotted last value key.dropLast entries
  | none => none

/-- Reads the key of an entry in a table in line, and its equals sign; lines may end on both sides. -/
def readMemberKey (s : List Char) : Option (List String × List Char) :=
  match readKey s with
  | none => none
  | some (key, rest) =>
    match skipAll rest with
    | '=' :: rest => some (key, skipAll rest)
    | _ => none

mutual

/-- Reads a value with at most `depth` arrays and tables in each other. -/
def readValue : (steps depth : Nat) → List Char → Option (Value × List Char)
  | 0, _, _ => none
  | _ + 1, 0, '[' :: _ => none
  | _ + 1, 0, '\x7b' :: _ => none
  | steps + 1, depth + 1, '[' :: rest =>
    (readItems steps depth (skipAll rest)).map fun (items, rest) => (.array items, rest)
  | steps + 1, depth + 1, '\x7b' :: rest =>
    (readMembers steps depth [] (skipAll rest)).map fun (entries, rest) =>
      (.table .inLine entries, rest)
  | _ + 1, _, s =>
    match s with
    | '"' :: _ | '\'' :: _ =>
      (readString s).map fun (cs, rest) => (.text (String.ofList cs), rest)
    | s => readScalar s

/-- Reads the items of an array and its closing bracket. -/
def readItems : (steps depth : Nat) → List Char → Option (List Value × List Char)
  | 0, _, _ => none
  | _ + 1, _, ']' :: rest => some ([], rest)
  | steps + 1, depth, s =>
    match readValue steps depth s with
    | none => none
    | some (item, rest) =>
      match skipAll rest with
      | ',' :: rest =>
        (readItems steps depth (skipAll rest)).map fun (items, rest) => (item :: items, rest)
      | ']' :: rest => some ([item], rest)
      | _ => none

/-- Reads the entries of a table in line and its closing brace. -/
def readMembers : (steps depth : Nat) → Entries → List Char → Option (Entries × List Char)
  | 0, _, _, _ => none
  | _ + 1, _, entries, '\x7d' :: rest => some (entries, rest)
  | steps + 1, depth, entries, s =>
    match readMemberKey s with
    | none => none
    | some (key, rest) =>
      match readValue steps depth rest with
      | none => none
      | some (value, rest) =>
        match addKey key value entries with
        | none => none
        | some entries =>
          match skipAll rest with
          | ',' :: rest => readMembers steps depth entries (skipAll rest)
          | '\x7d' :: rest => some (entries, rest)
          | _ => none

end

/-! ## §4. Documents. -/

/-- A document in part: its root, and the header that holds for the next keys. -/
structure Draft where
  root : Entries
  header : List String

/-- Reads a key and its value into the table of the header. -/
def readEntry (d : Draft) (s : List Char) : Option (Draft × List Char) := do
  match ← readKey s with
  | (key, '=' :: s) =>
    let (value, s) ← readValue (2 * s.length + 2) limit (skipGap s)
    let root ← changeAt (addKey key value) d.header d.root
    pure ({ d with root }, s)
  | _ => none

/-- Reads a header after its opening brackets, of which there are one or two. -/
def readHeader (d : Draft) (isNext : Bool) (s : List Char) : Option (Draft × List Char) := do
  let (key, s) ← readKey s
  let s ←
    match isNext, s with
    | false, ']' :: s => some s
    | true, ']' :: ']' :: s => some s
    | _, _ => none
  let last ← key.getLast?
  let declare := if isNext then declareNext last else declareTable last
  let root ← changeAt declare key.dropLast d.root
  pure (⟨root, key⟩, s)

/-- Reads lines to the end. -/
def readLinesOf : (steps : Nat) → Draft → List Char → Option Draft
  | 0, _, _ => none
  | steps + 1, d, s =>
    match skipGap s with
    | [] => some d
    | s =>
      let read :=
        match s with
        | '[' :: '[' :: rest => readHeader d true rest
        | '[' :: rest => readHeader d false rest
        | c :: _ => if c = '#' || (afterBreak? s).isSome then some (d, s) else readEntry d s
        | [] => none
      match read with
      | none => none
      | some (d, s) =>
        match endLine? s with
        | some s => readLinesOf steps d s
        | none => none

/-- The text without a byte order mark. -/
def withoutMark : List Char → List Char
  | '\uFEFF' :: s => s
  | s => s

/-- Reads a document: the entries of its root, in the order in which their keys first came. -/
def parse (text : String) : Option Entries :=
  let s := withoutMark text.toList
  (readLinesOf (s.length + 1) ⟨[], []⟩ s).map (·.root)

end OpenApi.Toml
