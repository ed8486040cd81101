/-
  OpenApi.Url.Parse — reading URLs, absolute or relative to a base.

  A text is cut at the first `#` and the first `?` before it; what is left starts with a scheme, with
  slashes, or with a segment. A backslash counts as a slash in the special schemes. Segments are resolved
  from left to right: a single dot is left out, a double dot takes the segment before it away, and neither
  leads above the root. A segment that is a drive letter is not taken away, whatever the scheme.
-/
import OpenApi.Url.Basic

namespace OpenApi.Url

open Text

/-! ## §1. Segments. -/

/-- A segment with its letters in lower case. -/
def lowered (s : List Char) : List Char := s.map Char.toLower

/-- Does the segment stand for its own directory? -/
def isSingleDot (s : List Char) : Bool := [".".toList, "%2e".toList].contains (lowered s)

/-- Does the segment stand for the directory above? -/
def isDoubleDot (s : List Char) : Bool :=
  ["..".toList, ".%2e".toList, "%2e.".toList, "%2e%2e".toList].contains (lowered s)

/-- Is it a letter and a colon or bar? -/
def isDrive : List Char → Bool
  | [letter, mark] => letter.isAlpha && (mark = ':' || mark = '|')
  | _ => false

/-- A drive letter with a colon. -/
def normalDrive : List Char → List Char
  | letter :: _ => [letter, ':']
  | [] => []

/-- Is it a letter and a colon? -/
def isNormalDrive (s : List Char) : Bool := isDrive s && s.getLast? = some ':'

/-- Does the segment start with a drive letter, alone or before a backslash? -/
def holdsDrive (s : List Char) : Bool := isDrive (s.takeWhile (· ≠ '\\'))

/-- The segments without the last one, unless that holds a drive letter. -/
def shortened (segments : List (List Char)) : List (List Char) :=
  if segments.getLast?.any holdsDrive then segments else segments.dropLast

/-- The segments with one more; the first segment of a file may be a drive letter. -/
def extended (isFile : Bool) (front : List (List Char)) (s : List Char) : List (List Char) :=
  if isFile && front.isEmpty && isDrive s then [normalDrive s] else front ++ [s]

/-- Resolves segments against those in front of them. The last one names a file, or is empty. -/
def resolve (isFile : Bool) (front : List (List Char)) : List (List Char) → List (List Char)
  | [] => front
  | [s] =>
    if isDoubleDot s then shortened front ++ [[]]
    else if isSingleDot s then front ++ [[]]
    else extended isFile front s
  | s :: rest =>
    if isDoubleDot s then resolve isFile (shortened front) rest
    else if isSingleDot s then resolve isFile front rest
    else resolve isFile (extended isFile front s) rest

/-- Does the character separate segments? -/
def isSlash (special : Bool) (c : Char) : Bool := c = '/' || (special && c = '\\')

/-- The segments that a text writes after those in front. -/
def segmentsAfter (scheme : List Char) (front : List (List Char)) (s : List Char) :
    List (List Char) :=
  resolve (scheme = fileScheme) front
    ((pieces (isSlash (isSpecial scheme)) s).map (encoded encodesInPath))

/-- The path of some segments; that of a file does not start with empty ones. -/
def pathOfSegments (scheme : List Char) (segments : List (List Char)) : Path :=
  if scheme = fileScheme then
    match segments.dropWhile List.isEmpty with
    | [] => .segments [[]]
    | ss => .segments ss
  else .segments segments

/-- The path that a text writes after the segments in front. -/
def pathAfter (scheme : List Char) (front : List (List Char)) (s : List Char) : Path :=
  pathOfSegments scheme (segmentsAfter scheme front s)

/-! ## §2. Cutting a text. -/

/-- Is it a control character or a space? -/
def isEdge (c : Char) : Bool := c.toNat ≤ 0x20

/-- The text without control characters and spaces at its ends, and without tabs and line breaks. -/
def cleaned (s : List Char) : List Char :=
  let s := (s.dropWhile isEdge).reverse.dropWhile isEdge
  s.reverse.filter fun c => !(['\t', '\n', '\r'].contains c)

/-- A text cut at its marks. -/
structure Cut where
  body : List Char
  query : Option (List Char)
  fragment : Option (List Char)

/-- Cuts a text at the first `#` and the first `?` before it. -/
def cut (s : List Char) : Cut :=
  let (front, fragment) :=
    match splitFirst '#' s with
    | some (front, fragment) => (front, some fragment)
    | none => (s, none)
  match splitFirst '?' front with
  | some (body, query) => ⟨body, some query, fragment⟩
  | none => ⟨front, none, fragment⟩

/-- May the character stand in a scheme, after a letter? -/
def inScheme (c : Char) : Bool := c.isAlphanum || ['+', '-', '.'].contains c

/-- The scheme that the text starts with, in lower case, and what follows its colon. -/
def scheme? (s : List Char) : Option (List Char × List Char) :=
  match s, s.dropWhile inScheme with
  | c :: _, ':' :: rest => if c.isAlpha then some (lowered (s.takeWhile inScheme), rest) else none
  | _, _ => none

/-! ## §3. Authorities. -/

/-- Splits a host from what follows the colon after it; colons in brackets do not count. -/
def splitPort (inBrackets : Bool) : List Char → List Char × Option (List Char)
  | [] => ([], none)
  | c :: s =>
    if c = ':' && !inBrackets then ([], some s)
    else
      let inside := c = '[' || (inBrackets && c ≠ ']')
      let (host, port) := splitPort inside s
      (c :: host, port)

/-- The port that the digits write, unless it is the scheme's own. -/
def port? (scheme : List Char) (digits : List Char) : Except Problem (Option Nat) :=
  let n := digits.foldl (fun n c => n * 10 + (c.toNat - 48)) 0
  if digits.isEmpty || schemePorts.contains (scheme, n) then .ok none
  else if n ≤ 65535 then .ok (some n)
  else .error .invalidPort

/-- User name and password, encoded. -/
def userOf (s : List Char) : List Char × List Char :=
  match splitFirst ':' s with
  | some (name, password) => (encoded encodesInUser name, encoded encodesInUser password)
  | none => (encoded encodesInUser s, [])

/-- Reads an authority; `isLast` says whether the URL ends with it. The second part is what follows its
port: nothing, or a backslash and more, which belong to the path. -/
def parseAuthority (scheme : List Char) (isLast : Bool) (s : List Char) :
    Except Problem (Authority × List Char) := do
  -- an at sign may stand in a password, never in a host
  let (user, place) :=
    match splitLast '@' s with
    | some (user, place) => (some user, place)
    | none => (none, s)
  if user = some [] && place.isEmpty && !isLast then .error .emptyHost
  else
    let user := userOf (user.getD [])
    let (hostText, portText) := splitPort false place
    let host ←
      if isSpecial scheme then
        (if hostText.isEmpty then .error .emptyHost else Host.parse hostText)
      else Host.parseOpaque hostText
    if host = .name [] && (portText.isSome || user ≠ ([], [])) then .error .emptyHost
    else
      let digits := (portText.getD []).takeWhile Char.isDigit
      let rest := (portText.getD []).dropWhile Char.isDigit
      if rest.head?.any (· ≠ '\\') then .error .invalidPort
      else
        let port ← port? scheme digits
        pure (⟨user, host, port⟩, rest)

/-- The path after an authority. Special schemes always have one. -/
def pathOf (scheme : List Char) : List Char → Path
  | [] => .segments (if isSpecial scheme then [[]] else [])
  | c :: s => pathAfter scheme [] (if isSlash (isSpecial scheme) c then s else c :: s)

/-- The query of a text, encoded. -/
def queryOf (scheme : List Char) (query : Option (List Char)) : Option (List Char) :=
  query.map (encoded (encodesInQuery (isSpecial scheme)))

/-- The fragment of a text, encoded. -/
def fragmentOf (fragment : Option (List Char)) : Option (List Char) :=
  fragment.map (encoded encodesInFragment)

/-- Reads what follows the slashes after a scheme. -/
def parseServed (scheme body : List Char) (c : Cut) : Except Problem Url := do
  let isEnd := isSlash (isSpecial scheme)
  let place := body.takeWhile fun c => !isEnd c
  let rest := body.dropWhile fun c => !isEnd c
  let isLast := rest.isEmpty && c.query.isNone && c.fragment.isNone
  let (authority, more) ← parseAuthority scheme isLast place
  pure ⟨scheme, some authority, pathOf scheme (more ++ rest), queryOf scheme c.query,
    fragmentOf c.fragment⟩

/-! ## §4. Resolving against a base. -/

/-- The segments of a path. -/
def Path.list : Path → List (List Char)
  | .segments ss => ss
  | .flat _ => []

/-- The base with only its fragment, or also its query, replaced. -/
def replaceEnd (base : Url) (c : Cut) : Url :=
  match c.query with
  | some _ => { base with query := queryOf base.scheme c.query, fragment := fragmentOf c.fragment }
  | none => { base with fragment := fragmentOf c.fragment }

/-- The base with another path, query and fragment. -/
def replacePath (base : Url) (path : Path) (c : Cut) : Url :=
  { base with path := path, query := queryOf base.scheme c.query, fragment := fragmentOf c.fragment }

/-- Resolves a text without scheme against a base that is no file. -/
def resolveServed (base : Url) (c : Cut) : Except Problem Url :=
  match c.body with
  | [] => .ok (base.replaceEnd c)
  | first :: rest =>
    if isSlash true first then
      match rest with
      | second :: rest =>
        if isSlash true second then
          if first = '/' && second = '/' then parseServed base.scheme rest c
          else parseServed base.scheme (rest.dropWhile (isSlash true)) c
        else .ok (base.replacePath (pathAfter base.scheme [] (second :: rest)) c)
      | [] => .ok (base.replacePath (pathAfter base.scheme [] []) c)
    else .ok (base.replacePath (pathAfter base.scheme base.path.list.dropLast (first :: rest)) c)

/-- Does the text start with a segment that is a drive letter? -/
def startsWithDrive (s : List Char) : Bool := isDrive (s.takeWhile fun c => !isSlash true c)

/-- The URL of a file without host. -/
def fileUrl (host : Host) (path : Path) (c : Cut) : Url :=
  ⟨fileScheme, some ⟨([], []), host, none⟩, path, queryOf fileScheme c.query, fragmentOf c.fragment⟩

/-- The host of this machine, which stands for none. -/
def localHost : Host := .name "localhost".toList

/-- Reads what follows two slashes in the URL of a file. A host gives way to a drive letter. -/
def parseFileHost (body : List Char) (c : Cut) : Except Problem Url := do
  let place := body.takeWhile fun c => !isSlash true c
  let rest := body.dropWhile fun c => !isSlash true c
  if isDrive place then pure (fileUrl (.name []) (pathAfter fileScheme [] body) c)
  else
    let host ← if place.isEmpty then pure localHost else Host.parse place
    -- without a host, the slash after it starts an empty segment, and no drive letter is the first
    if host = localHost then pure (fileUrl (.name []) (pathAfter fileScheme [] rest) c)
    else
      let segments := segmentsAfter fileScheme [] (rest.drop 1)
      let host := if segments.head?.any isDrive then .name [] else host
      pure (fileUrl host (pathOfSegments fileScheme segments) c)

/-- The segments of a file without its name; a drive letter is no name. -/
def directory : List (List Char) → List (List Char)
  | [s] => if isNormalDrive s then [s] else []
  | segments => segments.dropLast

/-- The host of a base, empty if there is none. -/
def hostOf (base : Option Url) : Host :=
  match base.bind (·.authority) with
  | some a => a.host
  | none => .name []

/-- Reads what follows one slash in the URL of a file: the host of the base stays, or its drive. -/
def parseFileRoot (base : Option Url) (body : List Char) (c : Cut) : Url :=
  if startsWithDrive body then fileUrl (.name []) (pathAfter fileScheme [] body) c
  else
    match (base.map (·.path.list)).getD [] with
    | drive :: _ =>
      if isNormalDrive drive then fileUrl (.name []) (pathAfter fileScheme [drive] body) c
      else fileUrl (hostOf base) (pathAfter fileScheme [] body) c
    | [] => fileUrl (hostOf base) (pathAfter fileScheme [] body) c

/-- Reads the URL of a file after its scheme, or relative to a file. -/
def parseFile (base : Option Url) (c : Cut) : Except Problem Url :=
  match c.body with
  | first :: rest =>
    if isSlash true first then
      match rest with
      | second :: more =>
        if isSlash true second then parseFileHost more c else .ok (parseFileRoot base rest c)
      | [] => .ok (parseFileRoot base [] c)
    else
      match base with
      | some b =>
        if startsWithDrive c.body then .ok (fileUrl (.name []) (pathAfter fileScheme [] c.body) c)
        else .ok (b.replacePath (pathAfter fileScheme (directory b.path.list) c.body) c)
      | none => .ok (fileUrl (.name []) (pathAfter fileScheme [] c.body) c)
  | [] =>
    match base with
    | some b => .ok (b.replaceEnd c)
    | none => .ok (fileUrl (.name []) (.segments [[]]) c)

/-! ## §5. Reading. -/

/-- Reads a URL after its scheme. -/
def parseAfterScheme (base : Option Url) (scheme : List Char) (c : Cut) : Except Problem Url :=
  let sameBase := base.filter fun b => b.scheme = scheme
  if scheme = fileScheme then parseFile sameBase c
  else if isSpecial scheme then
    let slashes := c.body.takeWhile (isSlash true)
    match sameBase with
    | some b =>
      -- with the scheme of the base and no authority the text is relative after all
      if slashes.length < 2 then resolveServed b c
      else parseServed scheme (c.body.drop slashes.length) c
    | none => parseServed scheme (c.body.drop slashes.length) c
  else
    match c.body with
    | '/' :: '/' :: body => parseServed scheme body c
    | '/' :: body =>
      .ok ⟨scheme, none, pathAfter scheme [] body, queryOf scheme c.query, fragmentOf c.fragment⟩
    | body =>
      .ok ⟨scheme, none, .flat (encoded isControl body), queryOf scheme c.query,
        fragmentOf c.fragment⟩

/-- Reads a URL, relative to a base if there is one. -/
def parseWith (base : Option Url) (s : List Char) : Except Problem Url :=
  let s := cleaned s
  match scheme? s with
  | some (scheme, rest) => parseAfterScheme base scheme (cut rest)
  | none =>
    match base with
    | none => .error .relativeWithoutBase
    | some b =>
      match s, b.path with
      -- a fragment alone fits every base
      | '#' :: _, _ => .ok (b.replaceEnd (cut s))
      | _, .flat _ => .error .relativeToOpaqueBase
      | _, .segments _ =>
        if b.scheme = fileScheme then parseFile base (cut s) else b.resolveServed (cut s)

/-- Reads an absolute URL. -/
def parse (s : List Char) : Except Problem Url := parseWith none s

/-- Reads a URL relative to a base. -/
def join (base : Url) (s : List Char) : Except Problem Url := parseWith (some base) s

end OpenApi.Url
