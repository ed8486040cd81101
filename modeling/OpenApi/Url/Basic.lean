/-
  OpenApi.Url.Basic — URLs and their text.

  A URL has a scheme, an authority or none, a path, and perhaps a query and a fragment. The path is a list of
  segments; schemes without authority may have a path that is a mere text instead. All parts are kept
  encoded, so the text of a URL is put together from them unchanged.
-/
import OpenApi.Url.Host.Basic

namespace OpenApi

/-! ## §1. Parts of a URL. -/

/-- Who serves a URL. -/
structure Url.Authority where
  /-- The user name and password, encoded; each may be empty. -/
  user : List Char × List Char
  host : Url.Host
  /-- The port, unless it is the scheme's own. -/
  port : Option Nat
  deriving DecidableEq, Repr

/-- The path of a URL. -/
inductive Url.Path
  /-- A text that cannot be resolved against. -/
  | flat (text : List Char)
  /-- Segments, each of which is written after a slash. -/
  | segments (segments : List (List Char))
  deriving DecidableEq, Repr

/-- A URL. -/
structure Url where
  scheme : List Char
  authority : Option Url.Authority
  path : Url.Path
  query : Option (List Char)
  fragment : Option (List Char)
  deriving DecidableEq, Repr

namespace Url

/-! ## §2. Schemes. -/

/-- The scheme of files. -/
def fileScheme : List Char := "file".toList

/-- The special schemes other than that of files, with their ports. -/
def schemePorts : List (List Char × Nat) :=
  [("ftp".toList, 21), ("http".toList, 80), ("https".toList, 443), ("ws".toList, 80),
   ("wss".toList, 443)]

/-- Do URLs of the scheme always have an authority and segments? -/
def isSpecial (scheme : List Char) : Bool :=
  scheme = fileScheme || schemePorts.any (·.1 = scheme)

/-! ## §3. Text. -/

/-- What is written before the host: user name and password, if there are any. -/
def Authority.userText (a : Authority) : List Char :=
  match a.user with
  | ([], []) => []
  | (name, []) => name ++ ['@']
  | (name, password) => name ++ [':'] ++ password ++ ['@']

/-- The text of an authority. -/
def Authority.text (a : Authority) : List Char :=
  a.userText ++ a.host.text ++
    (match a.port with
      | some port => ':' :: Nat.toDigits 10 port
      | none => [])

/-- The text of segments. -/
def segmentsText (segments : List (List Char)) : List Char := segments.flatMap ('/' :: ·)

/-- The text of a path. Without authority, a path must not start with two slashes. -/
def Path.text (hasAuthority : Bool) : Path → List Char
  | flat text => text
  | segments ss =>
    (match hasAuthority, ss with
      | false, [] :: _ :: _ => ['/', '.']
      | _, _ => []) ++ segmentsText ss

/-- A part of a URL with the mark before it, if the part is there. -/
def partText (mark : Char) : Option (List Char) → List Char
  | some text => mark :: text
  | none => []

/-- The text of a URL. -/
def text (u : Url) : List Char :=
  u.scheme ++ [':'] ++
    (match u.authority with
      | some a => ['/', '/'] ++ a.text
      | none => []) ++
    u.path.text u.authority.isSome ++ partText '?' u.query ++ partText '#' u.fragment

/-- The last segment of the path, unless it is empty. -/
def fileName? (u : Url) : Option (List Char) :=
  match u.path with
  | .segments ss => ss.getLast?.filter fun s => !s.isEmpty
  | .flat _ => none

/-! ## §4. Files. -/

/-- The URL of a file, given the names that lead to it from the root. -/
def ofFile (names : List (List Char)) : Url where
  scheme := fileScheme
  authority := some ⟨([], []), .name [], none⟩
  path := .segments (if names.isEmpty then [[]] else names.map (encoded encodesInSegment))
  query := none
  fragment := none

/-- Does a file path end in a drive letter, such as `C:`? -/
def endsInDrive (bytes : List UInt8) : Bool :=
  match bytes.reverse with
  | mark :: letter :: _ :: _ =>
    (mark = 58 || mark = 124) && (Char.ofNat letter.toNat).isAlpha
  | _ => false

/-- The path of the file that a URL names, as bytes; a URL with a host names none here. -/
def filePath? (u : Url) : Option (List UInt8) :=
  match u.path, u.authority.map (·.host.text) with
  | .segments (s :: ss), none | .segments (s :: ss), some [] =>
    let bytes := (s :: ss).flatMap fun s => 47 :: decoded s
    some (if endsInDrive bytes then bytes ++ [47] else bytes)
  | _, _ => none

end Url

end OpenApi
