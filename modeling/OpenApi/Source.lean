/-
  OpenApi.Source — the text of a document, and errors that point into it.

  A path is found in the text segment by segment: each is searched for as a key (bare, in double or in
  single quotes) after the one before, and the leftmost occurrence counts. An index that is not found
  is passed over; any other segment that is not found ends the search. The span found is that of the
  deepest key, and is what an error about the path points at.
-/
import OpenApi.Error
import OpenApi.Text.Blank
import OpenApi.Text.Numeral

namespace OpenApi

/-- The text of a document and its name. -/
structure Source where
  text : String
  filename : String
  deriving DecidableEq, Repr

namespace Source

/-! ## §1. Keys in a text. -/

/-- A place in a text: the character before it, how many bytes lie before it, and the rest. -/
structure Cursor where
  before : Option Char
  offset : Nat
  rest : List Char

/-- The place before the first character. -/
def Cursor.start (text : List Char) : Cursor := ⟨none, 0, text⟩

/-- How many bytes the characters take. -/
def byteCount (s : List Char) : Nat := s.foldl (fun n c => n + c.utf8Size) 0

/-- The place `count` characters further. -/
def Cursor.advance : (count : Nat) → Cursor → Cursor
  | 0, c => c
  | _ + 1, ⟨before, offset, []⟩ => ⟨before, offset, []⟩
  | count + 1, ⟨_, offset, c :: rest⟩ => advance count ⟨some c, offset + c.utf8Size, rest⟩

/-- May a key start after this character, or at the start of the text? -/
def startsKey : Option Char → Bool
  | none => true
  | some c => Text.isBlank c || c = '\x7b' || c = ',' || c = '-' || c = '?'

/-- Does a key end before this text: spaces and tabs, then a colon? -/
def endsKey (s : List Char) : Bool :=
  (s.dropWhile fun c => c = ' ' || c = '\t').head? = some ':'

/-- The ways to write a key: bare unless it is empty, in double quotes, in single quotes. -/
def spellings (key : List Char) : List (List Char) :=
  (if key.isEmpty then [] else [key]) ++ ['"' :: key ++ ['"'], '\'' :: key ++ ['\'']]

/-- The spelling that stands as a key at the start of `s`. -/
def spellingAt (spellings : List (List Char)) (s : List Char) : Option (List Char) :=
  spellings.find? fun w => w.isPrefixOf s && endsKey (s.drop w.length)

/-- The leftmost place from here on where a spelling stands as a key, and that spelling. -/
def findSpelling (spellings : List (List Char)) (before : Option Char) (offset : Nat) :
    List Char → Option (Cursor × List Char)
  | [] => none
  | c :: rest =>
    match (if startsKey before then spellingAt spellings (c :: rest) else none) with
    | some w => some (⟨before, offset, c :: rest⟩, w)
    | none => findSpelling spellings (some c) (offset + c.utf8Size) rest

/-- Finds `key` from a place on: the span of its leftmost occurrence, and the place after it. -/
def findKey (key : String) (c : Cursor) : Option (Span × Cursor) :=
  (findSpelling (spellings key.toList) c.before c.offset c.rest).map fun (at_, w) =>
    (⟨at_.offset, byteCount w⟩, at_.advance w.length)

/-! ## §2. Locating a path. -/

/-- Is the segment an index: an unsigned number that fits 64 bits? -/
def isIndex (segment : String) : Bool := (Text.unsigned? (Nat.pow 2 64) segment).isSome

/-- The span of the deepest key of a path, found from a place on. -/
def locateFrom (c : Cursor) (found : Option Span) : Path → Option Span
  | [] => found
  | segment :: rest =>
    match findKey segment c with
    | some (span, c) => locateFrom c (some span) rest
    -- an item has no key in the text, so the search goes on below it
    | none => if isIndex segment then locateFrom c found rest else found

/-- The span of the deepest key of a path that is found in the text. -/
def locate (s : Source) (path : Path) : Option Span :=
  locateFrom (.start s.text.toList) none path

/-- How many line feeds start before byte `offset`. -/
def lineFeedsBefore : (offset : Nat) → List Char → Nat
  | _, [] => 0
  | 0, _ :: _ => 0
  | offset + 1, c :: rest =>
    (if c = '\n' then 1 else 0) + lineFeedsBefore (offset + 1 - c.utf8Size) rest

/-- The line of a byte, counted from one. -/
def lineAt (s : Source) (offset : Nat) : Nat := lineFeedsBefore offset s.text.toList + 1

/-- The location of a path. -/
def location (s : Source) (path : Path) : Location :=
  .ofPath s.filename path ((s.locate path).map fun span => s.lineAt span.offset)

/-- The characters whose first byte lies in the span, from a place on. -/
def charsWithin (span : Span) : (offset : Nat) → List Char → List Char
  | _, [] => []
  | offset, c :: rest =>
    let more := charsWithin span (offset + c.utf8Size) rest
    if span.offset ≤ offset && offset < span.stop then c :: more else more

/-- The text of a span. -/
def textOf (s : Source) (span : Span) : String := String.ofList (charsWithin span 0 s.text.toList)

/-! ## §3. Errors. -/

/-- The error that `cause` makes of the location of a path, pointing at that path. -/
def errorAt (s : Source) (path : Path) (cause : Location → Cause) : Error :=
  ⟨cause (s.location path), s.locate path⟩

/-- The text is not well-formed. -/
def malformed (s : Source) (detail : Option String) : Error := ⟨.malformed s.filename detail, none⟩

/-- The mapping at `path` lacks `key`. -/
def missingField (s : Source) (path : Path) (key : String) (keys : List String) : Error :=
  s.errorAt path (.missingField key keys)

/-- The node at `path` is of the wrong kind. -/
def wrongKind (s : Source) (path : Path) (expected found : String) : Error :=
  s.errorAt path (.wrongKind expected found)

/-- The scalar at `path` is none of the expected ones. -/
def invalidVariant (s : Source) (path : Path) (value : String) (expected : List String) : Error :=
  s.errorAt path (.invalidVariant value expected)

/-- The value at `path` breaks a rule. -/
def invalidValue (s : Source) (path : Path) (message : String) : Error :=
  s.errorAt path fun l => .invalidValue message (some l)

/-- The node at `path` has an unsupported shape. -/
def unsupported (s : Source) (path : Path) (what : String) : Error :=
  s.errorAt path (.unsupported what)

/-- The reference at `path` is malformed. -/
def invalidReference (s : Source) (path : Path) (reference : String) : Error :=
  s.errorAt path fun l => .invalidReference reference (some l)

/-- Keys were never read; the error points at the first of them. -/
def unusedKeys (s : Source) (paths : List Path) : Error :=
  ⟨.unusedKeys s.filename (paths.map fun p => "#/" ++ pointer p), paths.head?.bind s.locate⟩

end Source

end OpenApi
