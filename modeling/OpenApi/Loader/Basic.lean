/-
  OpenApi.Loader.Basic — documents by their name.

  A loader serves documents by a name relative to the first one, say from memory or from a directory. On disk, a
  file whose name ends in `.link` stands for the document that its first line names; that document is known
  by its own name, in the directory of the link.
-/
import OpenApi.Document.Basic
import OpenApi.Event
import OpenApi.Keyed
import OpenApi.Loader.Disk
import OpenApi.Text.Blank
import OpenApi.Url.Parse

namespace OpenApi

open Text

/-- Where documents come from. -/
structure Loader where
  /-- Loads a document by its name, and tells what happened. -/
  load : String → List Event × Except Error Document
  /-- A bound on the number of documents that are served. -/
  size : Nat

namespace Loader

/-! ## §1. Links. -/

/-- The error of a link that cannot be followed. -/
def linkError (link message : String) : Error := ⟨.brokenLink link message, none⟩

/-- The error of a file that cannot be read. -/
def readError (path : String) : Error := ⟨.unreadable path, none⟩

/-- The text of the file at a path. -/
def readFile (files : Disk) (path : List Char) : Except Error String :=
  match files.read? path with
  | some text => .ok text
  | none => .error (readError (String.ofList path))

/-- The target that a link names, on its first line. -/
def linkTarget (text : String) : List Char := trim (firstLine text.toList)

/-- What a link leads to: its URL, the name of the file, and its format. -/
structure Target where
  url : Url
  file : String
  format : Format

/-- Resolves the text of the link at a path. -/
def resolveLink (path : List Char) (text : String) : Except String Target :=
  let target := linkTarget text
  if target.isEmpty then .error "link file is empty"
  else
    match (Url.ofFile (FilePath.names path)).join target with
    | .error p => .error p.message
    | .ok url =>
      match url.fileName? with
      | none => .error ("'" ++ String.ofList url.text ++ "' does not name a file")
      | some file =>
        let file := String.ofList file
        match Format.ofFilename? file with
        | none => .error ("unsupported document format '" ++ file ++ "'")
        | some format => .ok ⟨url, file, format⟩

/-- The text that a URL leads to. Only files can be read. -/
def readUrl (files : Disk) (link : String) (url : Url) : Except Error String :=
  let shown := String.ofList url.text
  if url.scheme = Url.fileScheme then
    match url.filePath? with
    | none => .error (linkError link ("invalid file URL '" ++ shown ++ "'"))
    | some bytes =>
      -- every file has a name that is text, so other bytes lead nowhere
      match Utf8.decode? bytes with
      | some path => readFile files path
      | none => .error (readError (String.ofList (Utf8.decodeLossy bytes)))
  else if url.scheme = "http".toList || url.scheme = "https".toList then
    .error (linkError link ("fetching '" ++ shown ++ "' requires the \x60remote\x60 feature"))
  else
    .error (linkError link ("unsupported URL scheme '" ++ String.ofList url.scheme ++ "'"))

/-- The name of a linked file: it counts as lying in the directory of the link. -/
def linkedName (link file : String) : String :=
  match splitLast '/' link.toList with
  | some (directory, _) => String.ofList directory ++ "/" ++ file
  | none => file

/-- The document that a link leads to. -/
def followLink (files : Disk) (link : String) (path : List Char) (text : String) :
    List Event × Except Error Document :=
  match resolveLink path text with
  | .error message => ([], .error (linkError link message))
  | .ok target =>
    match readUrl files link target.url with
    | .error e => ([], .error e)
    | .ok content =>
      ([.followedLink link (String.ofList target.url.text)],
        Document.parseAs content (linkedName link target.file) target.format)

/-! ## §2. Loading. -/

/-- Is it the name of a link? -/
def isLink (name : String) : Bool := ".link".toList.isSuffixOf name.toList

/-- The loader for documents by their names, or the errors of reading them. -/
def memory (documents : List (String × Except Error Document)) : Loader where
  load name :=
    match Keyed.value? name documents with
    | some document => ([.loadedDocument name], document)
    | none => ([], .error (readError name))
  size := documents.length

/-- The loader for texts by their names. -/
def ofTexts (texts : List (String × String)) : Loader :=
  memory (texts.map fun entry => (entry.1, Document.parse entry.2 entry.1))

/-- The loader for the files below a directory. -/
def disk (files : Disk) (root : String) : Loader where
  load name :=
    let path := FilePath.under root.toList name.toList
    match readFile files path with
    | .error e => ([], .error e)
    | .ok text =>
      if isLink name then followLink files name path text
      else ([.loadedDocument name], Document.parse text name)
  size := files.files.length

/-- The loader for the directory of a file, and the name of the file in it. -/
def ofFile (files : Disk) (path : String) : Loader × String :=
  let (directory, name) := FilePath.split path.toList
  (disk files (String.ofList directory), String.ofList name)

end Loader

end OpenApi
