/-
  OpenApi.Document.Basic — documents.

  A document is a tree together with its source text. Reading one needs its format, which its name
  gives unless it is told.
-/
import OpenApi.Document.Format
import OpenApi.Document.Usage
import OpenApi.Json.Reader
import OpenApi.Source
import OpenApi.Text.Quoted
import OpenApi.Yaml.Reader

namespace OpenApi

/-- A document that was read. -/
structure Document where
  source : Source
  format : Format
  root : Node

namespace Document

/-- The name under which the document was loaded. -/
def filename (d : Document) : String := d.source.filename

/-- The tree of a text in a format, if it is well-formed. -/
def tree? (format : Format) (text : String) : Option Node :=
  match format with
  | .yaml => (Yaml.parse text).map Node.ofYaml
  | .json => (Json.parse text).map Node.ofJson

/-- Reads a document in a format. -/
def parseAs (text filename : String) (format : Format) : Except Error Document :=
  let source : Source := ⟨text, filename⟩
  match tree? format text with
  | some root => .ok ⟨source, format, root⟩
  | none => .error (source.malformed none)

/-- Reads a document in the format that its name tells. -/
def parse (text filename : String) : Except Error Document :=
  match Format.ofFilename? filename with
  | some format => parseAs text filename format
  | none =>
    .error ⟨.unsupported "document format (expected .yaml, .yml or .json)"
      (.ofPath filename [] none), none⟩

/-- Fails if a key of the document was not read. -/
def checkUnused (d : Document) (u : Usage) : Except Error Unit :=
  match u.unused d.root with
  | [] => .ok ()
  | paths => .error (d.source.unusedKeys paths)

/-- A summary of the document: its name and format. -/
def summary (d : Document) : String :=
  let format :=
    match d.format with
    | .yaml => "Yaml"
    | .json => "Json"
  "Document \x7b filename: " ++ Text.quoted d.filename ++ ", format: " ++ format ++ ", .. \x7d"

end Document

end OpenApi
