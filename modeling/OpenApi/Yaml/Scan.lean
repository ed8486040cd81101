/-
  OpenApi.Yaml.Scan — reading one scalar, tag, anchor or directive.

  Each reader starts at a place and gives what it read and the place after it, or nothing if the text
  is malformed. Folding is the same in all scalars: a single line break between words is a space,
  further line breaks are kept.
-/
import OpenApi.Yaml.Place
import OpenApi.Yaml.Token

namespace OpenApi.Yaml

/-! ## §1. What stands between two words of a scalar. -/

/-- Blanks and line breaks between two words. -/
structure Gap where
  /-- Was there a line break? -/
  broken : Bool
  /-- Spaces and tabs before the first line break. -/
  spaces : List Char
  /-- The first line break. -/
  first : List Char
  /-- The line breaks after it. -/
  further : List Char

namespace Gap

/-- Nothing between the words. -/
def none : Gap := ⟨false, [], [], []⟩

/-- What a gap contributes to the text: its spaces, or its folded line breaks. -/
def text (g : Gap) : List Char :=
  if g.broken then
    if g.first = ['\n'] then
      if g.further.isEmpty then [' '] else g.further
    else g.first ++ g.further
  else g.spaces

/-- Reads blanks and line breaks. A tab left of `tabColumn` on a new line is an error. -/
def read (tabColumn : Int) : (steps : Nat) → Gap → Place → Option (Gap × Place)
  | 0, g, p => some (g, p)
  | steps + 1, g, p =>
    match p.head? with
    | Option.none => some (g, p)
    | some c =>
      if isGap c then
        -- after a line break blanks are indentation, and a tab is none
        if g.broken && p.column < tabColumn && c = '\t' then Option.none
        else if g.broken then read tabColumn steps g (p.skip 1)
        else read tabColumn steps { g with spaces := g.spaces ++ [c] } (p.skip 1)
      else if isBreak c then
        if g.broken then
          read tabColumn steps { g with further := g.further ++ p.breakText } p.skipBreak
        else
          read tabColumn steps { g with broken := true, spaces := [], first := p.breakText } p.skipBreak
      else some (g, p)

end Gap

/-! ## §2. Plain scalars. -/

/-- Is the character an indicator that ends a plain scalar inside brackets? -/
def isFlowIndicator (c : Char) : Bool :=
  c = ',' || c = '[' || c = ']' || c = '\x7b' || c = '\x7d'

/-- The word at the start of a text; inside brackets a colon before an indicator is an error. -/
def plainWord (inFlow : Bool) : List Char → Option (List Char)
  | [] => some []
  | c :: s =>
    let next := s.head?
    if endsWord (some c) then some []
    -- a colon ends the word before a blank only, but inside brackets no indicator may follow it
    else if inFlow && c = ':' && (next.any fun d => isFlowIndicator d || d = '?') then none
    else if (c = ':' && endsWord next) || (inFlow && isFlowIndicator c) then some []
    else (plainWord inFlow s).map (c :: ·)

/-- Reads a plain scalar whose further lines are indented to `indent` at least. The last part says
whether the scalar was followed by a line break. -/
def readPlain (inFlow : Bool) (indent : Int) :
    (steps : Nat) → (text : List Char) → Gap → Place → Option (List Char × Bool × Place)
  | 0, _, _, _ => none
  | steps + 1, text, gap, p =>
    if p.atDocumentMarker || p.isAt '#' then some (text, gap.broken, p)
    else
      match plainWord inFlow p.rest with
      | none => none
      | some [] => some (text, gap.broken, p)
      | some word =>
        -- the gap before a word counts only now that the word is there
        let text := text ++ gap.text ++ word
        let p := p.skip word.length
        if endsWord p.head? && !p.rest.isEmpty then
          match Gap.none.read indent (p.rest.length + 1) p with
          | none => none
          | some (gap, p) =>
            -- a line that is not indented belongs to the collection around the scalar
            if !inFlow && p.column < indent then some (text, gap.broken, p)
            else readPlain inFlow indent steps text gap p
        else some (text, false, p)

/-! ## §3. Quoted scalars. -/

/-- The value of a hexadecimal digit. -/
def hexDigit? (c : Char) : Option Nat :=
  if c.isDigit then some (c.toNat - 48)
  else if 'a' ≤ c && c ≤ 'f' then some (c.toNat - 87)
  else if 'A' ≤ c && c ≤ 'F' then some (c.toNat - 55)
  else none

/-- The number written by the first `count` characters in hexadecimal. -/
def hexNumber? : (count : Nat) → (soFar : Nat) → List Char → Option Nat
  | 0, n, _ => some n
  | _ + 1, _, [] => none
  | count + 1, n, c :: s =>
    match hexDigit? c with
    | some d => hexNumber? count (16 * n + d) s
    | none => none

/-- The character of an escape of one letter. -/
def escapeLetter? : Char → Option Char
  | '0' => some '\x00'
  | 'a' => some '\x07'
  | 'b' => some '\x08'
  | 't' => some '\t'
  | '\t' => some '\t'
  | 'n' => some '\n'
  | 'v' => some '\x0b'
  | 'f' => some '\x0c'
  | 'r' => some '\r'
  | 'e' => some '\x1b'
  | ' ' => some ' '
  | '"' => some '"'
  | '/' => some '/'
  | '\\' => some '\\'
  | 'N' => some '\u0085'
  | '_' => some '\u00a0'
  | 'L' => some '\u2028'
  | 'P' => some '\u2029'
  | _ => none

/-- How many hexadecimal digits an escape takes. -/
def escapeDigits : Char → Option Nat
  | 'x' => some 2
  | 'u' => some 4
  | 'U' => some 8
  | _ => none

/-- The character of an escape whose backslash is left off, and the length of the escape without it. -/
def escape? : List Char → Option (Char × Nat)
  | [] => none
  | c :: s =>
    match escapeDigits c with
    | some count =>
      match hexNumber? count 0 s with
      | some n =>
        if (0xD800 ≤ n && n ≤ 0xDFFF) || 0x10FFFF < n then none
        else some (Char.ofNat n, count + 1)
      | none => none
    | none => (escapeLetter? c).map fun d => (d, 1)

/-- How the run of characters of a quoted scalar ends. -/
inductive QuotedEnd
  /-- At a blank, a line break or the closing quote. -/
  | here
  /-- After a line break that a backslash takes out of the text. -/
  | folded

/-- A character in front of the run that follows it. -/
def runAfter (c : Char) (run : Option (List Char × QuotedEnd × Place)) :
    Option (List Char × QuotedEnd × Place) :=
  run.map fun r => (c :: r.1, r.2)

/-- Reads the characters of a quoted scalar up to a blank, a line break or the closing quote. -/
def quotedRun (single : Bool) : (steps : Nat) → Place → Option (List Char × QuotedEnd × Place)
  | 0, _ => none
  | steps + 1, p =>
    match p.rest with
    | [] => some ([], .here, p)
    | c :: s =>
      if endsWord (some c) then some ([], .here, p)
      else if single then
        if c = '\'' then
          -- a quote that is written twice stands for itself
          if s.head? = some '\'' then runAfter c (quotedRun single steps (p.skip 2))
          else some ([], .here, p)
        else runAfter c (quotedRun single steps (p.skip 1))
      else if c = '"' then some ([], .here, p)
      else if c = '\\' then
        -- the line break leaves no trace, but those after it do
        if s.head?.any isBreak then some ([], .folded, (p.skip 1).skipBreak)
        else
          match escape? s with
          | some (d, length) => runAfter d (quotedRun single steps (p.skip (length + 1)))
          | none => none
      else runAfter c (quotedRun single steps (p.skip 1))

/-- Reads a quoted scalar from after its opening quote. -/
def readQuoted (single : Bool) : (steps : Nat) → (text : List Char) → Place →
    Option (List Char × Place)
  | 0, _, _ => none
  | steps + 1, text, p =>
    if p.atDocumentMarker || p.rest.isEmpty then none
    else
      match quotedRun single (p.rest.length + 1) p with
      | none => none
      | some (run, ending, p) =>
        let text := text ++ run
        if p.isAt (if single then '\'' else '"') then some (text, p.skip 1)
        else
          let gap : Gap :=
            match ending with
            | .here => Gap.none
            | .folded => { Gap.none with broken := true }
          match gap.read (-1) (p.rest.length + 1) p with
          | none => none
          | some (gap, p) => readQuoted single steps (text ++ gap.text) p

/-! ## §4. Block scalars. -/

/-- What happens to the line breaks at the end of a block scalar. -/
inductive Chomp
  | strip
  | clip
  | keep

/-- The first line of a block scalar: its chomping and its indentation, if given. -/
def readBlockHeader (p : Place) : Option (Chomp × Option Nat × Place) :=
  let chomp (p : Place) : Option (Chomp × Place) :=
    match p.head? with
    | some '+' => some (.keep, p.skip 1)
    | some '-' => some (.strip, p.skip 1)
    | _ => none
  let digit (p : Place) : Option (Nat × Place) :=
    match p.head? with
    | some c => if c.isDigit then some (c.toNat - 48, p.skip 1) else none
    | none => none
  -- chomping and indentation may come in either order
  let (how, width, p) :=
    match chomp p with
    | some (how, p) =>
      match digit p with
      | some (n, p) => (how, some n, p)
      | none => (how, none, p)
    | none =>
      match digit p with
      | some (n, p) =>
        match chomp p with
        | some (how, p) => (how, some n, p)
        | none => (Chomp.clip, some n, p)
      | none => (Chomp.clip, none, p)
  let p := (p.skipWhile isGap).skipComment
  if width = some 0 || !endsLine p.head? then none else some (how, width, p.skipBreak)

/-- Reads indentation and empty lines. `indent` is zero while it is not known; then it is taken from
the widest indentation seen, and is at least `least`. -/
def readBlockBreaks (least : Int) : (steps : Nat) → (indent widest : Int) → (breaks : List Char) →
    Place → Option (Int × List Char × Place)
  | 0, _, _, _, _ => none
  | steps + 1, indent, widest, breaks, p =>
    -- spaces beyond the indentation belong to the text
    let room : Nat := if indent = 0 then p.rest.length else (indent - p.column).toNat
    let p := p.skip ((p.rest.takeWhile (· = ' ')).take room).length
    let widest := max widest p.column
    if (indent = 0 || p.column < indent) && p.isAt '\t' then none
    else if p.head?.any isBreak then
      readBlockBreaks least steps indent widest (breaks ++ p.breakText) p.skipBreak
    else if indent = 0 then some (max (max widest least) 1, breaks, p)
    else some (indent, breaks, p)

/-- A block scalar while it is read. -/
structure BlockText where
  text : List Char
  /-- The line break after the last line. -/
  lead : List Char
  /-- The empty lines after it. -/
  breaks : List Char
  /-- Did the last line start with a blank? -/
  indented : Bool

/-- Reads the lines of a block scalar. -/
def readBlockLines (literal : Bool) (least indent : Int) : (steps : Nat) → BlockText → Place →
    Option (BlockText × Place)
  | 0, _, _ => none
  | steps + 1, b, p =>
    if (p.column : Int) = indent && !p.rest.isEmpty then
      -- lines are folded unless one of them starts with a blank
      let blank := p.head?.any isGap
      let joint :=
        if !literal && b.lead = ['\n'] && !b.indented && !blank then
          if b.breaks.isEmpty then [' '] else []
        else b.lead
      let (line, p) := p.run fun c => !isBreak c
      let text := b.text ++ joint ++ b.breaks ++ line
      let lead := p.breakText
      match readBlockBreaks least (p.rest.length + 2) indent 0 [] p.skipBreak with
      | none => none
      | some (_, breaks, p) => readBlockLines literal least indent steps ⟨text, lead, breaks, blank⟩ p
    else some (b, p)

/-- Reads a block scalar from after its indicator; `parent` is the indentation around it. -/
def readBlock (literal : Bool) (parent : Int) (p : Place) : Option (List Char × Place) :=
  match readBlockHeader p with
  | none => none
  | some (how, width, p) =>
    let indent : Int :=
      match width with
      | some n => if 0 ≤ parent then parent + n else n
      | none => 0
    match readBlockBreaks (parent + 1) (p.rest.length + 2) indent 0 [] p with
    | none => none
    | some (indent, breaks, p) =>
      match readBlockLines literal (parent + 1) indent (p.rest.length + 2) ⟨[], [], breaks, false⟩ p with
      | none => none
      | some (b, p) =>
        let tail :=
          match how with
          | .strip => []
          | .clip => b.lead
          | .keep => b.lead ++ b.breaks
        some (b.text ++ tail, p)

/-! ## §5. Anchors and tags. -/

/-- Reads the name of an anchor or alias from after its indicator. -/
def readAnchor (p : Place) : Option (String × Place) :=
  let (name, p) := p.run isNameChar
  let ends :=
    endsWord p.head? || p.head?.any fun c =>
      c = '?' || c = ':' || c = ',' || c = ']' || c = '\x7d' || c = '%' || c = '@' || c.toNat = 0x60
  if name.isEmpty || !ends then none else some (String.ofList name, p)

/-- May the character stand in a tag? `verbatim` tags may hold flow indicators too. -/
def isTagChar (verbatim : Bool) (c : Char) : Bool :=
  isNameChar c || ";/?:@&=+$.%!~*'()".toList.contains c ||
    (verbatim && (c = ',' || c = '[' || c = ']'))

/-- The byte written by `%` and two hexadecimal digits. -/
def escapedByte? : List Char → Option (UInt8 × List Char)
  | '%' :: a :: b :: s => (hexNumber? 2 0 [a, b]).map fun n => (n.toUInt8, s)
  | _ => none

/-- How many bytes follow the first byte of a character, by its high bits alone. -/
def furtherBytes? (b : UInt8) : Option Nat :=
  if b < 0x80 then some 0
  else if b / 0x20 = 6 then some 1
  else if b / 0x10 = 14 then some 2
  else if b / 0x08 = 30 then some 3
  else none

/-- The bytes of a tag whose escapes are undone, with `more` bytes of an escaped character to come. Those
must be escaped as well and start with the bits 10; more is not asked of them. -/
def tagBytes? : (steps : Nat) → (more : Nat) → List Char → Option (List UInt8)
  | 0, more, _ => if more = 0 then some [] else none
  | _, 0, [] => some []
  | steps + 1, 0, '%' :: s => do
    let (b, s) ← escapedByte? ('%' :: s)
    let more ← furtherBytes? b
    let bytes ← tagBytes? steps more s
    pure (b :: bytes)
  | steps + 1, 0, c :: s => (tagBytes? steps 0 s).map (String.utf8EncodeChar c ++ ·)
  | steps + 1, more + 1, s => do
    let (b, s) ← escapedByte? s
    if b / 0x40 = 2 then
      let bytes ← tagBytes? steps more s
      pure (b :: bytes)
    else failure

/-- Reads a tag, or a part of one, after `head`; together they must not be empty. -/
def readTagPart (verbatim : Bool) (head : List Char) (p : Place) : Option (Tag × Place) :=
  let (text, p) := p.run (isTagChar verbatim)
  if head.isEmpty && text.isEmpty then none
  else
    (tagBytes? text.length 0 text).map fun bytes =>
      (Tag.ofBytes (Text.Utf8.bytes (head.drop 1) ++ bytes), p)

/-- Reads a handle: `!`, name characters, and perhaps a second `!`. -/
def readHandle (p : Place) : Option (List Char × Place) :=
  if p.isAt '!' then
    let (name, p) := (p.skip 1).run isNameChar
    if p.isAt '!' then some ('!' :: name ++ ['!'], p.skip 1) else some ('!' :: name, p)
  else none

/-- Reads a tag: `!<text>`, `!handle!suffix`, `!suffix` or `!` alone. -/
def readTag (inFlow : Bool) (p : Place) : Option (Token × Place) :=
  let body : Option (Token × Place) :=
    if p.at? 1 = some '<' then
      match readTagPart true [] (p.skip 2) with
      | none => none
      | some (tag, p) => if p.isAt '>' then some (.tag "" tag, p.skip 1) else none
    else
      match readHandle p with
      | none => none
      | some (handle, p) =>
        if handle.length ≥ 2 && handle.getLast? = some '!' then
          match readTagPart false [] p with
          | none => none
          | some (suffix, p) => some (.tag (String.ofList handle) suffix, p)
        else
          -- without a second mark, what looked like a handle is the start of the suffix
          match readTagPart false handle p with
          | none => none
          | some (suffix, p) =>
            if suffix.isEmpty then some (.tag "" (.ofText "!"), p) else some (.tag "!" suffix, p)
  match body with
  | none => none
  | some (token, p) =>
    if endsWord p.head? || (inFlow && p.isAt ',') then some (token, p) else none

/-! ## §6. Directives. -/

/-- Reads a part of a version number: one to nine digits. -/
def readVersionPart (p : Place) : Option (Nat × Place) :=
  let (digits, p) := p.run Char.isDigit
  if digits.isEmpty || 9 < digits.length then none
  else some (digits.foldl (fun n c => 10 * n + (c.toNat - 48)) 0, p)

/-- Reads a directive from its `%` to the end of its line. -/
def readDirective (p : Place) : Option (Token × Place) :=
  let (name, p) := (p.skip 1).run isNameChar
  let body : Option (Token × Place) :=
    if name.isEmpty || !endsWord p.head? then none
    else if name = ['Y', 'A', 'M', 'L'] then
      match readVersionPart (p.skipWhile isGap) with
      | none => none
      | some (major, p) =>
        if p.isAt '.' then
          (readVersionPart (p.skip 1)).map fun (minor, p) => (.version major minor, p)
        else none
    else if name = ['T', 'A', 'G'] then
      match readHandle (p.skipWhile isGap) with
      | none => none
      | some (handle, p) =>
        if (handle.length ≥ 2 && handle.getLast? ≠ some '!') || !(p.head?.any isGap) then none
        else
          match readTagPart true [] (p.skipWhile isGap) with
          | none => none
          | some (stem, p) =>
            if endsWord p.head? then some (.tagHandle (String.ofList handle) stem, p) else none
    else none
  match body with
  | none => none
  | some (token, p) =>
    let p := (p.skipWhile isGap).skipComment
    if endsLine p.head? then some (token, p.skipBreak) else none

end OpenApi.Yaml
