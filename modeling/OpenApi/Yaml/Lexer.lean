/-
  OpenApi.Yaml.Lexer — from text to tokens.

  The lexer makes indentation explicit and finds keys late: a token that may be a key is remembered,
  and if a `:` follows on the same line within 1024 bytes, a `key` token is put in front of it.
  Outside brackets a key, an entry or a value may only stand where a line could begin with it.
-/
import OpenApi.Yaml.Scan

namespace OpenApi.Yaml

/-! ## §1. State. -/

/-- A token that turns out to be a key if a `:` follows soon enough. -/
structure KeyMark where
  /-- How many tokens precede it. -/
  tokenNumber : Nat
  /-- Must a `:` follow, since the token stands where only a key may? -/
  required : Bool
  index : Nat
  line : Nat
  column : Nat

/-- A lexer in the middle of a text. -/
structure Lexer where
  place : Place
  /-- The tokens so far, last first. -/
  tokens : List Token
  /-- The column of the innermost block collection, or -1. -/
  indent : Int
  /-- The columns of the collections around it. -/
  indents : List Int
  /-- May a key start here? -/
  keyAllowed : Bool
  /-- The possible key inside the innermost brackets. -/
  keyMark : Option KeyMark
  /-- The possible keys around each pair of brackets that is open. -/
  outerMarks : List (Option KeyMark)

namespace Lexer

/-- A lexer at the start of a text. -/
def start (text : List Char) : Lexer where
  place := .start text
  tokens := []
  indent := -1
  indents := []
  keyAllowed := true
  keyMark := none
  outerMarks := []

/-- Are brackets open? -/
def inFlow (l : Lexer) : Bool := !l.outerMarks.isEmpty

/-- Adds a token at the end. -/
def push (l : Lexer) (t : Token) : Lexer := { l with tokens := t :: l.tokens }

/-- Puts a token in front of the one that `number` tokens precede. -/
def insertAt (l : Lexer) (number : Nat) (t : Token) : Lexer :=
  { l with tokens := l.tokens.insertIdx (l.tokens.length - number) t }

/-! ## §2. Indentation. -/

/-- Opens a block collection at `column`, if that is deeper than the innermost one. -/
def roll (l : Lexer) (column : Nat) (number : Option Nat) (t : Token) : Lexer :=
  if l.inFlow || (column : Int) ≤ l.indent then l
  else
    let l := { l with indent := column, indents := l.indent :: l.indents }
    match number with
    | some n => l.insertAt n t
    | none => l.push t

/-- Closes the given collections as long as they are deeper than `column`. -/
def closing (column : Int) : (indent : Int) → (indents : List Int) → List Token →
    Int × List Int × List Token
  | indent, outer :: indents, tokens =>
    if column < indent then closing column outer indents (.blockEnd :: tokens)
    else (indent, outer :: indents, tokens)
  | indent, [], tokens => (indent, [], tokens)

/-- Closes every block collection deeper than `column`. -/
def unroll (l : Lexer) (column : Int) : Lexer :=
  if l.inFlow then l
  else
    let (indent, indents, tokens) := closing column l.indent l.indents l.tokens
    { l with indent, indents, tokens }

/-! ## §3. Possible keys. -/

/-- Is the mark too far away to be a key: on an earlier line, or over 1024 bytes back? -/
def isStale (m : KeyMark) (p : Place) : Bool :=
  m.line < p.line || m.index + 1024 < p.index

/-- Forgets a mark that is stale; a required one is an error. -/
def refreshed (p : Place) : Option KeyMark → Option (Option KeyMark)
  | some m =>
    if isStale m p then
      if m.required then none else some none
    else some (some m)
  | none => some none

/-- Forgets all stale marks. -/
def refresh (l : Lexer) : Option Lexer := do
  let keyMark ← refreshed l.place l.keyMark
  let outerMarks ← l.outerMarks.mapM (refreshed l.place)
  pure { l with keyMark, outerMarks }

/-- Forgets the innermost mark, which must not be required. -/
def dropMark (l : Lexer) : Option Lexer :=
  match l.keyMark with
  | some m => if m.required then none else some { l with keyMark := none }
  | none => some l

/-- Remembers that the next token may be a key, where one is allowed. -/
def saveMark (l : Lexer) : Option Lexer :=
  if l.keyAllowed then
    (dropMark l).map fun l =>
      { l with
        keyMark := some
          -- at the column of the innermost block collection only a key may stand
          { tokenNumber := l.tokens.length
            required := !l.inFlow && l.indent = (l.place.column : Int)
            index := l.place.index
            line := l.place.line
            column := l.place.column } }
  else some l

/-! ## §4. Between tokens. -/

/-- Skips blanks, comments and line breaks. Tabs count as blanks where no key may start. -/
def skipToToken : (steps : Nat) → Lexer → Lexer
  | 0, l => l
  | steps + 1, l =>
    let p := if l.place.column = 0 && l.place.isAt '\ufeff' then l.place.skip 1 else l.place
    let tabs := l.inFlow || !l.keyAllowed
    let p := (p.skipWhile fun c => c = ' ' || (tabs && c = '\t')).skipComment
    if p.head?.any isBreak then
      -- outside brackets a line may start with a key
      skipToToken steps { l with place := p.skipBreak, keyAllowed := !l.inFlow || l.keyAllowed }
    else { l with place := p }

/-! ## §5. Tokens. -/

/-- Adds a token of `width` characters that starts here. -/
def indicator (l : Lexer) (width : Nat) (t : Token) : Lexer :=
  { l.push t with place := l.place.skip width }

/-- A directive or a document marker: every collection ends before it. -/
def atDocumentLevel (l : Lexer) : Option Lexer :=
  (l.unroll (-1)).dropMark.map fun l => { l with keyAllowed := false }

/-- The end of the text. -/
def fetchEnd (l : Lexer) : Option Lexer := l.atDocumentLevel.map fun l => l.push .streamEnd

/-- A directive. -/
def fetchDirective (l : Lexer) : Option Lexer := do
  let l ← l.atDocumentLevel
  let (token, p) ← readDirective l.place
  pure { l.push token with place := p }

/-- The start or end of a document. -/
def fetchMarker (l : Lexer) (t : Token) : Option Lexer :=
  l.atDocumentLevel.map fun l => l.indicator 3 t

/-- An opening bracket. -/
def fetchOpen (l : Lexer) (t : Token) : Option Lexer := do
  let l ← l.saveMark
  pure { l.indicator 1 t with
    keyAllowed := true
    keyMark := none
    outerMarks := l.keyMark :: l.outerMarks }

/-- A closing bracket. -/
def fetchClose (l : Lexer) (t : Token) : Option Lexer := do
  let l ← l.dropMark
  let l := { l.indicator 1 t with keyAllowed := false }
  match l.outerMarks with
  | mark :: marks => pure { l with keyMark := mark, outerMarks := marks }
  | [] => pure l

/-- A comma. -/
def fetchComma (l : Lexer) : Option Lexer := do
  let l ← l.dropMark
  pure { l.indicator 1 .flowEntry with keyAllowed := true }

/-- A dash. -/
def fetchEntry (l : Lexer) : Option Lexer := do
  let l ←
    -- inside brackets no reader of nodes accepts the entry
    if l.inFlow then some l
    else if l.keyAllowed then some (l.roll l.place.column none .blockSequenceStart)
    else none
  let l ← l.dropMark
  pure { l.indicator 1 .blockEntry with keyAllowed := true }

/-- A question mark. -/
def fetchKey (l : Lexer) : Option Lexer := do
  let l ←
    if l.inFlow then some l
    else if l.keyAllowed then some (l.roll l.place.column none .blockMappingStart)
    else none
  let l ← l.dropMark
  pure { l.indicator 1 .key with keyAllowed := !l.inFlow }

/-- A colon: after a possible key that key gets its token, else a key must be allowed here. -/
def fetchValue (l : Lexer) : Option Lexer :=
  match l.keyMark with
  | some m =>
    -- the mapping, if the key opens one, starts before the key
    let l := l.insertAt m.tokenNumber .key
    let l := l.roll m.column (some m.tokenNumber) .blockMappingStart
    some { l.indicator 1 .value with keyAllowed := false, keyMark := none }
  | none =>
    if l.inFlow then some { l.indicator 1 .value with keyAllowed := false }
    else if l.keyAllowed then
      -- the value of an absent key, or of one after a question mark
      let l := l.roll l.place.column none .blockMappingStart
      some { l.indicator 1 .value with keyAllowed := true }
    else none

/-- An anchor or an alias. -/
def fetchAnchor (l : Lexer) (make : String → Token) : Option Lexer := do
  let l ← l.saveMark
  let (name, p) ← readAnchor (l.place.skip 1)
  pure { l.push (make name) with place := p, keyAllowed := false }

/-- A tag. -/
def fetchTag (l : Lexer) : Option Lexer := do
  let l ← l.saveMark
  let (token, p) ← readTag l.inFlow l.place
  pure { l.push token with place := p, keyAllowed := false }

/-- A block scalar. -/
def fetchBlockScalar (l : Lexer) (literal : Bool) : Option Lexer := do
  let l ← l.dropMark
  let (text, p) ← readBlock literal l.indent (l.place.skip 1)
  pure { l.push (.scalar (String.ofList text) false) with place := p, keyAllowed := true }

/-- A quoted scalar. -/
def fetchQuoted (l : Lexer) (single : Bool) : Option Lexer := do
  let l ← l.saveMark
  let p := l.place.skip 1
  let (text, p) ← readQuoted single (p.rest.length + 1) [] p
  pure { l.push (.scalar (String.ofList text) false) with place := p, keyAllowed := false }

/-- A plain scalar. -/
def fetchPlain (l : Lexer) : Option Lexer := do
  let l ← l.saveMark
  let p := l.place
  let (text, broken, p) ← readPlain l.inFlow (l.indent + 1) (p.rest.length + 1) [] Gap.none p
  -- after a plain scalar only a new line may start with a key
  pure { l.push (.scalar (String.ofList text) true) with place := p, keyAllowed := broken }

/-- Is the character an indicator, with which no plain scalar starts? -/
def isIndicator (c : Char) : Bool :=
  "-?:,[]\x7b\x7d#&*!|>'\"%@".toList.contains c || c.toNat = 0x60

/-- May a plain scalar start here? -/
def startsPlain (l : Lexer) (c : Char) (next : Option Char) : Bool :=
  !(endsWord (some c) || isIndicator c) || (c = '-' && !next.any isGap) ||
    (!l.inFlow && (c = '?' || c = ':') && !endsWord next)

/-- Adds the token that starts here. -/
def fetch (l : Lexer) (c : Char) : Option Lexer :=
  let next := l.place.at? 1
  if l.place.column = 0 && c = '%' then l.fetchDirective
  else if l.place.atMarker '-' then l.fetchMarker .documentStart
  else if l.place.atMarker '.' then l.fetchMarker .documentEnd
  else if c = '[' then l.fetchOpen .flowSequenceStart
  else if c = '\x7b' then l.fetchOpen .flowMappingStart
  else if c = ']' then l.fetchClose .flowSequenceEnd
  else if c = '\x7d' then l.fetchClose .flowMappingEnd
  else if c = ',' then l.fetchComma
  else if c = '-' && endsWord next then l.fetchEntry
  else if c = '?' && (l.inFlow || endsWord next) then l.fetchKey
  else if c = ':' && (l.inFlow || endsWord next) then l.fetchValue
  else if c = '*' then l.fetchAnchor .alias
  else if c = '&' then l.fetchAnchor .anchor
  else if c = '!' then l.fetchTag
  else if c = '|' && !l.inFlow then l.fetchBlockScalar true
  else if c = '>' && !l.inFlow then l.fetchBlockScalar false
  else if c = '\'' then l.fetchQuoted true
  else if c = '"' then l.fetchQuoted false
  else if l.startsPlain c next then l.fetchPlain
  else none

/-- All tokens from here on. Every token takes a character, so as many steps as characters suffice. -/
def run : (steps : Nat) → Lexer → Option (List Token)
  | 0, _ => none
  | steps + 1, l => do
    let l ← (skipToToken (l.place.rest.length + 1) l).refresh
    -- a token ends the block collections that are indented deeper
    let l := l.unroll l.place.column
    match l.place.head? with
    | none =>
      let l ← l.fetchEnd
      pure l.tokens.reverse
    | some c => run steps (← l.fetch c)

end Lexer

/-- The tokens of a text, closed by `streamEnd`; none if a token or the layout is malformed. -/
def tokens? (text : List Char) : Option (List Token) :=
  if text.all isAllowed then (Lexer.start text).run (text.length + 1) else none

end OpenApi.Yaml
