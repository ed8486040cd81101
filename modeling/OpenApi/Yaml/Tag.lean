/-
  OpenApi.Yaml.Tag — the tag of a node.

  A tag is a run of bytes without the null byte; escapes may put bytes into it that are not UTF-8. A core
  tag gives a scalar its type. A local tag, one that starts with an exclamation mark, says nothing about
  the type; it stays with the value, unless its bytes are no text.
-/
import OpenApi.Text.Utf8

namespace OpenApi.Yaml

/-- A tag, or a part of one. -/
structure Tag where
  bytes : List UInt8
  deriving DecidableEq, Repr, Inhabited

namespace Tag

/-! ## §1. Building tags. -/

/-- The tag that some bytes write: a null byte ends it. -/
def ofBytes (bytes : List UInt8) : Tag := ⟨bytes.takeWhile (· ≠ 0)⟩

/-- The tag that a text writes. -/
def ofText (text : String) : Tag := ofBytes (Text.Utf8.bytes text.toList)

/-- A stem and the suffix after it. -/
def append (stem suffix : Tag) : Tag := ⟨stem.bytes ++ suffix.bytes⟩

/-- Has the tag no bytes? -/
def isEmpty (t : Tag) : Bool := t.bytes.isEmpty

/-- A core tag, by the name of its type. -/
def core (name : String) : Tag := ofText ("tag:yaml.org,2002:" ++ name)

/-! ## §2. Local tags. -/

/-- Does the tag start with an exclamation mark? -/
def isLocal (t : Tag) : Bool := t.bytes.head? = some 33

/-- The text after an exclamation mark, if there is one and it is not all. -/
def afterMark (text : List Char) : List Char :=
  match text with
  | '!' :: c :: rest => c :: rest
  | text => text

/-- The text that stays with the value of a node: that of a local tag. Up to two marks at its start do
not count, so they make no difference between tags. -/
def kept? (t : Tag) : Option String :=
  if t.isLocal then
    (Text.Utf8.decode? t.bytes).map fun text => String.ofList (afterMark (afterMark text))
  else none

end Tag

end OpenApi.Yaml
