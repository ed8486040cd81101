/-
  OpenApi.Location — places in a document.

  A path leads from the root of a document to a node: keys of mappings and indices of sequences. Its
  pointer writes `~` as `~0` and `/` as `~1` and puts `/` between segments, so no two paths that are not
  empty share a pointer. A location adds the file and, if it is known, the line.
-/
import OpenApi.Text.Cut

namespace OpenApi

/-! ## §1. Paths and pointers. -/

/-- Segments from the root of a document to a node. -/
abbrev Path := List String

/-- A segment with `~` and `/` escaped. -/
def escapeSegment : List Char → List Char
  | [] => []
  | '~' :: s => '~' :: '0' :: escapeSegment s
  | '/' :: s => '~' :: '1' :: escapeSegment s
  | c :: s => c :: escapeSegment s

/-- The body of a JSON pointer: the escaped segments with `/` between them. -/
def pointer (path : Path) : String :=
  String.ofList (Text.joinWith ['/'] (path.map fun segment => escapeSegment segment.toList))

/-! ## §2. Locations and spans. -/

/-- A position inside a document. -/
structure Location where
  /-- The name of the document. -/
  file : String
  /-- The pointer to the node, without the first `/`. -/
  pointer : String
  /-- The line of the node, counted from one, if the node was found in the text. -/
  line : Option Nat
  deriving DecidableEq, Repr

namespace Location

/-- The location of `path` in `file`. -/
def ofPath (file : String) (path : Path) (line : Option Nat) : Location :=
  ⟨file, OpenApi.pointer path, line⟩

/-- The text of a location: `file#/pointer (file:line)`. -/
def text (l : Location) : String :=
  let place := l.file ++ "#/" ++ l.pointer
  match l.line with
  | some n => place ++ " (" ++ l.file ++ ":" ++ toString n ++ ")"
  | none => place

/-- A location at the end of a sentence: ` at ` and its text, or nothing. -/
def suffixText (l : Option Location) : String :=
  match l with
  | some l => " at " ++ l.text
  | none => ""

end Location

/-- A range of bytes of a text. -/
structure Span where
  offset : Nat
  length : Nat
  deriving DecidableEq, Repr

/-- The first byte after the span. -/
def Span.stop (s : Span) : Nat := s.offset + s.length

end OpenApi
