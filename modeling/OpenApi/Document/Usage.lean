/-
  OpenApi.Document.Usage — which keys of a document were read.

  A key is read when it is looked up. A subtree is sealed when it is read or passed over as a whole;
  nothing below it is reported. What remains unread is listed in document order; only what stands below
  keys that were read is searched, and keys that start with `x-` are never reported.
-/
import OpenApi.Document.Node
import OpenApi.Location

namespace OpenApi

/-! ## §1. Marks. -/

/-- The paths that were read, and those that were read as a whole. -/
structure Usage where
  read : List Path
  sealed : List Path
  deriving DecidableEq, Repr, Inhabited

namespace Usage

/-- Nothing was read. -/
def none : Usage := ⟨[], []⟩

/-- Marks a path as read. -/
def markRead (u : Usage) (path : Path) : Usage := { u with read := path :: u.read }

/-- Marks the subtree at a path as read as a whole. -/
def markSealed (u : Usage) (path : Path) : Usage :=
  { u with read := path :: u.read, sealed := path :: u.sealed }

/-! ## §2. What is left. -/

/-- Is the key an extension, which is never reported? -/
def isExtension (key : String) : Bool := "x-".toList.isPrefixOf key.toList

/-- The unread keys of the mapping at `path`, given what is unread below each of its keys. Where two
keys have one text, lookups find the first, so the first decides for both. -/
def unusedKeys (u : Usage) (path : Path) (below : List (String × List Path)) : List Path :=
  below.flatMap fun entry =>
    if isExtension entry.1 then []
    -- below a key that was not read nothing more is reported
    else if u.read.contains (path ++ [entry.1]) then
      match below.find? fun e => e.1 = entry.1 with
      | some first => first.2
      | Option.none => []
    else [path ++ [entry.1]]

mutual

/-- The paths of unread keys in the subtree at `path`. -/
def unusedBelow (u : Usage) (path : Path) : Node → List Path
  | .mapping entries =>
    if u.sealed.contains path then [] else unusedKeys u path (unusedEntries u path entries)
  | .sequence items => if u.sealed.contains path then [] else unusedItems u path 0 items
  | .tagged _ n => unusedBelow u path n
  | _ => []

/-- The text of each key, with the paths of unread keys below it. -/
def unusedEntries (u : Usage) (path : Path) : List (Key × Node) → List (String × List Path)
  | [] => []
  | (key, n) :: rest =>
    match key.text with
    | Option.none => unusedEntries u path rest
    | some text => (text, unusedBelow u (path ++ [text]) n) :: unusedEntries u path rest

/-- The paths of unread keys in items, the first of which has this index. -/
def unusedItems (u : Usage) (path : Path) (index : Nat) : List Node → List Path
  | [] => []
  | n :: rest => unusedBelow u (path ++ [toString index]) n ++ unusedItems u path (index + 1) rest

end

/-- The paths of the keys of a tree that were never read, in document order. -/
def unused (u : Usage) (root : Node) : List Path := unusedBelow u [] root

end Usage

end OpenApi
