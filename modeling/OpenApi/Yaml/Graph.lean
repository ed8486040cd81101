/-
  OpenApi.Yaml.Graph — from tokens to the nodes of a document.

  A node is a scalar, a sequence, a mapping, or an alias of a node that has an anchor. A stream holds
  one document at most; directives need a document marker after them. An absent node is an empty
  plain scalar.
-/
import OpenApi.Yaml.Token

namespace OpenApi.Yaml

/-! ## §1. Nodes. -/

/-- What may precede a node: an anchor and a tag, the tag's handle already replaced. -/
structure Properties where
  anchor : Option String
  tag : Option Tag
  deriving Inhabited

/-- A node as written. -/
inductive Graph
  | alias (name : String)
  | scalar (properties : Properties) (text : String) (plain : Bool)
  | sequence (properties : Properties) (items : List Graph)
  | mapping (properties : Properties) (entries : List (Graph × Graph))
  deriving Inhabited

namespace Graph

/-- The node that stands for nothing. -/
def absent : Graph := .scalar ⟨none, none⟩ "" true

/-- What the text of a handle stands for. -/
abbrev Handles := List (String × Tag)

/-- The handles that every document has. -/
def defaultHandles : Handles := [("!", .ofText "!"), ("!!", .core "")]

/-- The whole tag: an empty handle adds nothing, another must be known. -/
def tag? (handles : Handles) (handle : String) (suffix : Tag) : Option Tag :=
  if handle = "" then some suffix
  else (handles.find? fun h => h.1 = handle).map fun h => h.2.append suffix

/-- Reads anchor and tag, in either order, each at most once. -/
def readProperties (handles : Handles) : List Token → Option (Properties × List Token)
  | .anchor name :: .tag handle suffix :: ts =>
    (tag? handles handle suffix).map fun t => (⟨some name, some t⟩, ts)
  | .tag handle suffix :: .anchor name :: ts =>
    (tag? handles handle suffix).map fun t => (⟨some name, some t⟩, ts)
  | .anchor name :: ts => some (⟨some name, none⟩, ts)
  | .tag handle suffix :: ts =>
    (tag? handles handle suffix).map fun t => (⟨none, some t⟩, ts)
  | ts => some (⟨none, none⟩, ts)

/-! ## §2. The grammar. -/

/-- Where a node stands: which collections may start there. -/
inductive Position
  /-- Inside brackets. -/
  | flow
  /-- An item of a block sequence, or a document. -/
  | block
  /-- A key or value of a block mapping, where a sequence needs no indentation. -/
  | blockMapping
  deriving DecidableEq

/-- Is the position outside brackets? -/
def Position.isBlock : Position → Bool
  | .flow => false
  | _ => true

/-- A node or collection, and the tokens after it. -/
abbrev Read (α : Type) := Option (α × List Token)

/-- Does a block sequence item end before this token? -/
def endsEntry : Token → Bool
  | .blockEntry => true
  | .blockEnd => true
  | _ => false

/-- Does the item of a sequence without indentation end before this token? -/
def endsIndentless : Token → Bool
  | .blockEntry => true
  | .blockEnd => true
  | .key => true
  | .value => true
  | _ => false

/-- Does the key or value of a block mapping end before this token? -/
def endsBlockSide : Token → Bool
  | .key => true
  | .value => true
  | .blockEnd => true
  | _ => false

/-- Does the key inside braces end before this token? -/
def endsFlowKey : Token → Bool
  | .value => true
  | .flowEntry => true
  | .flowMappingEnd => true
  | _ => false

/-- Does the value inside braces end before this token? -/
def endsFlowValue : Token → Bool
  | .flowEntry => true
  | .flowMappingEnd => true
  | _ => false

/-- Does the key of a pair inside square brackets end before this token? -/
def endsPairKey : Token → Bool
  | .value => true
  | .flowEntry => true
  | .flowSequenceEnd => true
  | _ => false

/-- Does the value of a pair inside square brackets end before this token? -/
def endsPairValue : Token → Bool
  | .flowEntry => true
  | .flowSequenceEnd => true
  | _ => false

mutual

/-- Reads a node. -/
def readNode (handles : Handles) : (steps : Nat) → Position → List Token → Read Graph
  | 0, _, _ => none
  | _ + 1, _, .alias name :: ts => some (.alias name, ts)
  | steps + 1, position, ts =>
    match readProperties handles ts with
    | none => none
    | some (properties, ts) =>
      match ts with
      | .scalar text plain :: ts => some (.scalar properties text plain, ts)
      | .flowSequenceStart :: ts =>
        (readFlowSequence handles steps true ts).map fun (items, ts) =>
          (.sequence properties items, ts)
      | .flowMappingStart :: ts =>
        (readFlowMapping handles steps true ts).map fun (entries, ts) =>
          (.mapping properties entries, ts)
      | .blockEntry :: _ =>
        -- the dashes of a value may stand at the column of its key
        if position = .blockMapping then
          (readIndentless handles steps ts).map fun (items, ts) => (.sequence properties items, ts)
        else readEmpty properties ts
      | .blockSequenceStart :: rest =>
        if position.isBlock then
          (readBlockSequence handles steps rest).map fun (items, ts) =>
            (.sequence properties items, ts)
        else readEmpty properties ts
      | .blockMappingStart :: rest =>
        if position.isBlock then
          (readBlockMapping handles steps rest).map fun (entries, ts) =>
            (.mapping properties entries, ts)
        else readEmpty properties ts
      | ts => readEmpty properties ts

/-- A node without content, which must have an anchor or a tag. -/
def readEmpty (properties : Properties) (ts : List Token) : Read Graph :=
  if properties.anchor.isSome || properties.tag.isSome then some (.scalar properties "" true, ts)
  else none

/-- Reads a node unless the next token ends it. -/
def readUnless (handles : Handles) : (steps : Nat) → Position → (Token → Bool) → List Token →
    Read Graph
  | 0, _, _, _ => none
  | steps + 1, position, ends, t :: ts =>
    if ends t then some (absent, t :: ts) else readNode handles steps position (t :: ts)
  | _ + 1, _, _, [] => none

/-- Reads the items of a block sequence. -/
def readBlockSequence (handles : Handles) : (steps : Nat) → List Token → Read (List Graph)
  | 0, _ => none
  | steps + 1, .blockEntry :: ts =>
    match readUnless handles steps .block endsEntry ts with
    | none => none
    | some (item, ts) =>
      (readBlockSequence handles steps ts).map fun (items, ts) => (item :: items, ts)
  | _ + 1, .blockEnd :: ts => some ([], ts)
  | _ + 1, _ => none

/-- Reads the items of a sequence that is not indented below its key. -/
def readIndentless (handles : Handles) : (steps : Nat) → List Token → Read (List Graph)
  | 0, _ => none
  | steps + 1, .blockEntry :: ts =>
    match readUnless handles steps .block endsIndentless ts with
    | none => none
    | some (item, ts) =>
      (readIndentless handles steps ts).map fun (items, ts) => (item :: items, ts)
  | _ + 1, ts => some ([], ts)

/-- Reads the entries of a block mapping. -/
def readBlockMapping (handles : Handles) : (steps : Nat) → List Token →
    Read (List (Graph × Graph))
  | 0, _ => none
  | steps + 1, .key :: ts =>
    match readUnless handles steps .blockMapping endsBlockSide ts with
    | none => none
    | some (key, ts) =>
      match readBlockValue handles steps ts with
      | none => none
      | some (value, ts) =>
        (readBlockMapping handles steps ts).map fun (entries, ts) => ((key, value) :: entries, ts)
  | _ + 1, .blockEnd :: ts => some ([], ts)
  | _ + 1, _ => none

/-- Reads the value of a block mapping entry, if there is one. -/
def readBlockValue (handles : Handles) : (steps : Nat) → List Token → Read Graph
  | 0, _ => none
  | steps + 1, .value :: ts => readUnless handles steps .blockMapping endsBlockSide ts
  | _ + 1, ts => some (absent, ts)

/-- Reads the items between square brackets. -/
def readFlowSequence (handles : Handles) : (steps : Nat) → (first : Bool) → List Token →
    Read (List Graph)
  | 0, _, _ => none
  | _ + 1, _, .flowSequenceEnd :: ts => some ([], ts)
  | steps + 1, true, ts => readFlowItem handles steps ts
  | steps + 1, false, .flowEntry :: ts => readFlowItem handles steps ts
  | _ + 1, false, _ => none

/-- Reads an item between square brackets, which may be a single pair, and the items after it. -/
def readFlowItem (handles : Handles) : (steps : Nat) → List Token → Read (List Graph)
  | 0, _ => none
  | _ + 1, .flowSequenceEnd :: ts => some ([], ts)
  | steps + 1, .key :: ts =>
    match readPair handles steps ts with
    | none => none
    | some (item, ts) =>
      (readFlowSequence handles steps false ts).map fun (items, ts) => (item :: items, ts)
  | steps + 1, ts =>
    match readNode handles steps .flow ts with
    | none => none
    | some (item, ts) =>
      (readFlowSequence handles steps false ts).map fun (items, ts) => (item :: items, ts)

/-- Reads a single pair between square brackets. The token that ends an absent key is passed over. -/
def readPair (handles : Handles) : (steps : Nat) → List Token → Read Graph
  | 0, _ => none
  | steps + 1, t :: ts =>
    let key := if endsPairKey t then some (absent, ts) else readNode handles steps .flow (t :: ts)
    match key with
    | none => none
    | some (key, .value :: ts) =>
      (readUnless handles steps .flow endsPairValue ts).map fun (value, ts) =>
        (.mapping ⟨none, none⟩ [(key, value)], ts)
    | some (key, ts) => some (.mapping ⟨none, none⟩ [(key, absent)], ts)
  | _ + 1, [] => none

/-- Reads the entries between braces. -/
def readFlowMapping (handles : Handles) : (steps : Nat) → (first : Bool) → List Token →
    Read (List (Graph × Graph))
  | 0, _, _ => none
  | _ + 1, _, .flowMappingEnd :: ts => some ([], ts)
  | steps + 1, true, ts => readFlowEntry handles steps ts
  | steps + 1, false, .flowEntry :: ts => readFlowEntry handles steps ts
  | _ + 1, false, _ => none

/-- Reads an entry between braces, which may be a key without a value, and the entries after it. -/
def readFlowEntry (handles : Handles) : (steps : Nat) → List Token → Read (List (Graph × Graph))
  | 0, _ => none
  | _ + 1, .flowMappingEnd :: ts => some ([], ts)
  | steps + 1, .key :: ts =>
    match readUnless handles steps .flow endsFlowKey ts with
    | none => none
    | some (key, ts) =>
      match readFlowValue handles steps ts with
      | none => none
      | some (value, ts) =>
        (readFlowMapping handles steps false ts).map fun (entries, ts) =>
          ((key, value) :: entries, ts)
  | steps + 1, ts =>
    match readNode handles steps .flow ts with
    | none => none
    | some (key, ts) =>
      (readFlowMapping handles steps false ts).map fun (entries, ts) => ((key, absent) :: entries, ts)

/-- Reads the value of an entry between braces, if there is one. -/
def readFlowValue (handles : Handles) : (steps : Nat) → List Token → Read Graph
  | 0, _ => none
  | steps + 1, .value :: ts => readUnless handles steps .flow endsFlowValue ts
  | _ + 1, ts => some (absent, ts)

end

/-! ## §3. Documents. -/

/-- Directives read so far. -/
structure Directives where
  versionSeen : Bool
  handles : Handles

/-- Reads the directives at the start of a document: one version, which is 1.1 or 1.2, and every
handle once. -/
def readDirectives : Directives → List Token → Option (Directives × List Token)
  | d, .version major minor :: ts =>
    if d.versionSeen || major ≠ 1 || (minor ≠ 1 && minor ≠ 2) then none
    else readDirectives { d with versionSeen := true } ts
  | d, .tagHandle handle stem :: ts =>
    if d.handles.any (fun h => h.1 = handle) then none
    else readDirectives { d with handles := d.handles ++ [(handle, stem)] } ts
  | d, ts => some (d, ts)

/-- Is the document without content before this token? -/
def endsDocument : Token → Bool
  | .version _ _ => true
  | .tagHandle _ _ => true
  | .documentStart => true
  | .documentEnd => true
  | .streamEnd => true
  | _ => false

/-- Do only document ends and the end of the stream follow? -/
def onlyEnds : List Token → Bool
  | [.streamEnd] => true
  | .documentEnd :: ts => onlyEnds ts
  | _ => false

/-- The node of the only document of a stream; `some none` for a stream without documents. -/
def ofTokens? (ts : List Token) : Option (Option Graph) :=
  let finish (read : Read Graph) : Option (Option Graph) :=
    match read with
    | some (g, ts) => if onlyEnds ts then some (some g) else none
    | none => none
  -- at most four readers follow each other before one takes a token
  let steps := 4 * ts.length + 4
  match ts with
  | [.streamEnd] => some none
  | _ =>
    match readDirectives ⟨false, []⟩ ts with
    | some (d, .documentStart :: ts) =>
      let handles := d.handles ++ defaultHandles
      match ts with
      | t :: _ =>
        finish (if endsDocument t then some (absent, ts) else readNode handles steps .block ts)
      | [] => none
    | some ({ versionSeen := false, handles := [] }, ts) =>
      finish (readNode defaultHandles steps .block ts)
    | _ => none

end Graph

end OpenApi.Yaml
