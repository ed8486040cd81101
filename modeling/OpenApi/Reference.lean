/-
  OpenApi.Reference — references to named schemas.

  A reference is written `file#/components/schemas/Name`; the file is relative to the document that holds the
  reference and may be left out. It is kept with the file resolved, so that all spellings of one target are
  one reference. `SchemaRef.parse` accepts exactly the texts of that form.
-/
import OpenApi.Url.Parse

namespace OpenApi

open Text

/-! ## §1. References. -/

/-- A reference to a named schema. -/
structure SchemaRef where
  /-- The file, resolved, and the place in it. -/
  reference : String
  /-- The reference as written. -/
  raw : String
  /-- The document that the reference is written in. -/
  declaredIn : String
  deriving DecidableEq, Repr

/-- Why a text is no reference to a schema. -/
inductive ReferenceProblem
  /-- It has characters that no reference has, or its file cannot be resolved. -/
  | malformed
  /-- It names something else than a schema. -/
  | notASchema
  deriving DecidableEq, Repr

namespace SchemaRef

/-- What stands between the file and the name. -/
def anchor : String := "#/components/schemas/"

/-- The place of a schema in a file. -/
def place (file name : String) : String := file ++ anchor ++ name

/-- The reference to the model `name` declared in `file`. -/
def toModel (file name : String) : SchemaRef := ⟨place file name, place file name, file⟩

/-- The file that the reference names. -/
def file (r : SchemaRef) : String :=
  match splitFirst '#' r.reference.toList with
  | some (file, _) => String.ofList file
  | none => r.reference

/-- The name of the schema. -/
def className (r : SchemaRef) : String :=
  match splitLast '/' r.reference.toList with
  | some (_, name) => String.ofList name
  | none => r.reference

/-- Do both name the same target? -/
def same (a b : SchemaRef) : Bool := a.reference = b.reference

/-! ## §2. Resolving files. -/

/-- The root against which files are resolved: documents are thought to be served from here. -/
def root : Url where
  scheme := "http".toList
  authority := some ⟨([], []), .name "example.invalid".toList, none⟩
  path := .segments [[]]
  query := none
  fragment := none

/-- The file that `path` names in the document `declaredIn`, if it lies below the root. -/
def resolveFile (path declaredIn : List Char) : Option (List Char) :=
  match root.join declaredIn with
  | .error _ => none
  | .ok base =>
    match base.join path with
    | .error _ => none
    | .ok url =>
      match afterHead root.text url.text with
      | some (c :: file) => some (c :: file)
      | _ => none

/-! ## §3. Reading. -/

/-- May the character stand in a reference? -/
def isReferenceChar (c : Char) : Bool := c.isAlphanum || ['-', '_', '.', '#', '/'].contains c

/-- The name after the anchor, if the text has that form. -/
def nameAfterAnchor (s : List Char) : Option (List Char) :=
  match afterHead anchor.toList s with
  | some (c :: name) =>
    if (c :: name).any fun d => d = '/' || d = '#' then none else some (c :: name)
  | _ => none

/-- Reads a reference that is written in the document `declaredIn`. -/
def parse (raw declaredIn : String) : Except ReferenceProblem SchemaRef :=
  let s := raw.toList
  if s.isEmpty || !s.all isReferenceChar then .error .malformed
  else
    match splitFirst '#' s with
    | none => .error .notASchema
    | some (path, rest) =>
      match (if path.isEmpty then some declaredIn.toList else resolveFile path declaredIn.toList) with
      | none => .error .malformed
      | some file =>
        match nameAfterAnchor ('#' :: rest) with
        | none => .error .notASchema
        | some name => .ok ⟨place (String.ofList file) (String.ofList name), raw, declaredIn⟩

end SchemaRef

end OpenApi
