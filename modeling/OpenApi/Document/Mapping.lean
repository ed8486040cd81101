/-
  OpenApi.Document.Mapping — reading mappings and sequences of a document.

  A mapping or sequence knows the path that leads to it. Looking a key up marks it as read; null counts
  as absent; a value of the wrong kind is an error at once. Asking whether a key is there, of which
  kind its value is, or which keys there are, marks nothing.
-/
import OpenApi.Document.Basic
import OpenApi.Document.Lookup
import OpenApi.Spelled
import OpenApi.Text.Numeral

namespace OpenApi

/-! ## §1. Mappings and sequences. -/

/-- Computations that read a document: they may fail, and they leave marks, also when they fail. -/
abbrev Reading := ExceptT Error (StateM Usage)

/-- A mapping in a document. -/
structure Mapping where
  document : Document
  node : Node
  path : Path

/-- A sequence in a document. -/
structure Sequence where
  document : Document
  node : Node
  path : Path

namespace Mapping

/-- The mapping at a path, if the node there is one. -/
def ofNode (document : Document) (node : Node) (path : Path) : Except Error Mapping :=
  if node.kind = .mapping then .ok ⟨document, node, path⟩
  else .error (document.source.wrongKind path "mapping" node.kind.text)

end Mapping

namespace Sequence

/-- The sequence at a path, if the node there is one. -/
def ofNode (document : Document) (node : Node) (path : Path) : Except Error Sequence :=
  if node.kind = .sequence then .ok ⟨document, node, path⟩
  else .error (document.source.wrongKind path "sequence" node.kind.text)

/-- The number of items. -/
def length (s : Sequence) : Nat := s.node.items.length

/-- The items with their paths, from an index on. -/
def itemsFrom (path : Path) : (index : Nat) → List Node → List (Path × Node)
  | _, [] => []
  | index, n :: rest => (path ++ [toString index], n) :: itemsFrom path (index + 1) rest

/-- The items with their paths. -/
def items (s : Sequence) : List (Path × Node) := itemsFrom s.path 0 s.node.items

/-- The items, which must all be mappings. -/
def mappings (s : Sequence) : Except Error (List Mapping) :=
  s.items.mapM fun item => Mapping.ofNode s.document item.2 item.1

/-- The texts of the items, which must all be scalars. -/
def texts (s : Sequence) : Except Error (List String) :=
  s.items.mapM fun item =>
    match item.2.scalarText with
    | some text => .ok text
    | none => .error (s.document.source.wrongKind item.1 "scalar" item.2.kind.text)

/-- A summary of the sequence: its file, path and length. -/
def summary (s : Sequence) : String :=
  "SequenceNode \x7b file: " ++ Text.quoted s.document.filename ++ ", path: " ++
    Text.quotedList s.path ++ ", len: " ++ toString s.length ++ " \x7d"

end Sequence

/-- The root mapping of a document. -/
def Document.mapping (d : Document) : Except Error Mapping := Mapping.ofNode d d.root []

namespace Mapping

/-! ## §2. Questions that mark nothing. -/

/-- The source text of the document. -/
def source (m : Mapping) : Source := m.document.source

/-- The name of the document. -/
def filename (m : Mapping) : String := m.document.filename

/-- The path of the value under `key`. -/
def child (m : Mapping) (key : String) : Path := m.path ++ [key]

/-- The location of the mapping. -/
def location (m : Mapping) : Location := m.source.location m.path

/-- The texts of the keys, in order. -/
def keys (m : Mapping) : List String := m.node.keys

/-- Is the key there, whatever its value? -/
def containsKey (m : Mapping) (key : String) : Bool := (m.node.get? key).isSome

/-- The kind of the value under `key`. -/
def kindOf (m : Mapping) (key : String) : Option NodeKind := (m.node.get? key).map Node.kind

/-- Is there no key? -/
def isEmpty (m : Mapping) : Bool := m.keys.isEmpty

/-- A summary of the mapping: its file, path and keys. -/
def summary (m : Mapping) : String :=
  "MappingNode \x7b file: " ++ Text.quoted m.filename ++ ", path: " ++ Text.quotedList m.path ++
    ", keys: " ++ Text.quotedList m.keys ++ " \x7d"

/-! ## §3. Lookups. -/

/-- Where a lookup of `key` is made. -/
def origin (m : Mapping) (key : String) : Origin := ⟨m.source, m.path, key⟩

/-- The lookup of a key that is absent. -/
def absent {α : Type} (m : Mapping) (key : String) : Lookup α :=
  ⟨.missing (.absent m.keys), some (m.origin key)⟩

/-- What `read` makes of the value under `key`; null counts as absent. -/
def look {α : Type} (m : Mapping) (key : String) (read : Node → Except Error α) :
    Except Error (Lookup α) :=
  match m.node.get? key with
  | none => .ok (m.absent key)
  | some n =>
    if n.kind = .null then .ok (m.absent key)
    else (read n).map fun value => ⟨.present value, some (m.origin key)⟩

/-- Looks a key up: the key is marked if it is there. -/
def lookup {α : Type} (m : Mapping) (key : String) (read : Node → Except Error α) :
    Reading (Lookup α) := do
  if m.containsKey key then modify fun u => u.markRead (m.child key)
  liftExcept (m.look key read)
where
  /-- A result as a computation that leaves no mark. -/
  liftExcept {β : Type} (r : Except Error β) : Reading β := ExceptT.mk (pure r)

/-- The text of a scalar under `key`. -/
def scalarAt (m : Mapping) (key : String) (n : Node) : Except Error String :=
  match n.scalarText with
  | some text => .ok text
  | none => .error (m.source.wrongKind (m.child key) "scalar" n.kind.text)

/-- Looks a mapping up. -/
def mapping (m : Mapping) (key : String) : Reading (Lookup Mapping) :=
  m.lookup key fun n => Mapping.ofNode m.document n (m.child key)

/-- Looks a sequence up. -/
def sequence (m : Mapping) (key : String) : Reading (Lookup Sequence) :=
  m.lookup key fun n => Sequence.ofNode m.document n (m.child key)

/-- Looks the text of a scalar up. -/
def string (m : Mapping) (key : String) : Reading (Lookup String) := m.lookup key (m.scalarAt key)

/-- Looks a boolean up; the texts `true` and `false` count as booleans. -/
def boolean (m : Mapping) (key : String) : Reading (Lookup Bool) :=
  m.lookup key fun n =>
    match n.boolean? with
    | some b => .ok b
    | none => do
      let text ← m.scalarAt key n
      if text = "true" then pure true
      else if text = "false" then pure false
      else throw (m.source.invalidVariant (m.child key) text ["true", "false"])

/-- One past the greatest unsigned number. -/
def numberBound : Nat := Nat.pow 2 64

/-- Looks an unsigned number up. -/
def number (m : Mapping) (key : String) : Reading (Lookup Nat) :=
  m.lookup key fun n => do
    let text ← m.scalarAt key n
    match Text.unsigned? numberBound text with
    | some n => pure n
    | none =>
      throw (m.source.invalidValue (m.child key)
        ("expected an unsigned integer, found '" ++ text ++ "'"))

/-- Looks a scalar of a closed set up. -/
def oneOf (α : Type) [Spelled α] (m : Mapping) (key : String) : Reading (Lookup α) :=
  m.lookup key fun n => do
    let text ← m.scalarAt key n
    match (Spelled.ofText? text : Option α) with
    | some value => pure value
    | none =>
      throw (m.source.invalidVariant (m.child key) text
        ((Spelled.all : List α).map Spelled.spelling))

/-! ## §4. Errors about a mapping. -/

/-- The mapping has an unsupported shape. -/
def unsupported (m : Mapping) (what : String) : Error := m.source.unsupported m.path what

/-- The value under `key` has an unsupported shape. -/
def unsupportedAt (m : Mapping) (key what : String) : Error :=
  m.source.unsupported (m.child key) what

/-- The reference under `key` is malformed. -/
def invalidReferenceAt (m : Mapping) (key reference : String) : Error :=
  m.source.invalidReference (m.child key) reference

/-- The value under `key` breaks a rule. -/
def invalidValueAt (m : Mapping) (key message : String) : Error :=
  m.source.invalidValue (m.child key) message

/-! ## §5. Whole subtrees. -/

/-- Looks the JSON form of a value up; the subtree counts as read. -/
def value (m : Mapping) (key : String) : Reading (Lookup Json) := do
  match m.node.get? key with
  | none => pure (m.absent key)
  | some n =>
    -- null counts as absent, but it was looked at
    if n.kind = .null then
      modify fun u => u.markRead (m.child key)
      pure (m.absent key)
    else
      modify fun u => u.markSealed (m.child key)
      match n.json with
      | .ok json => pure ⟨.present json, some (m.origin key)⟩
      | .error p => throw (m.invalidValueAt key ("value has no JSON form: " ++ p.message))

/-- The entries, all of which must hold mappings. -/
def mappingEntries (m : Mapping) : Reading (List (String × Mapping)) :=
  m.keys.mapM fun key => do
    let found ← m.mapping key
    let node ← ExceptT.mk (pure found.required)
    pure (key, node)

/-- Marks the keys that are there as read, with all that is below them. -/
def ignore (m : Mapping) (keys : List String) : Reading Unit :=
  modify fun u =>
    keys.foldl (fun u key => if m.containsKey key then u.markSealed (m.child key) else u) u

end Mapping

end OpenApi
