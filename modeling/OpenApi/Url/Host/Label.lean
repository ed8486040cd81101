/-
  OpenApi.Url.Host.Label — the labels of a domain name.

  A name is a row of labels with points between them. A label that starts with `xn--` is written in Punycode;
  what it stands for must need that writing and must be what the name would be if it were written out. A label
  holds no character that has a meaning in a URL, and starts with no mark.
-/
import OpenApi.Text.Composed
import OpenApi.Url.Host.Direction
import OpenApi.Url.Host.Joining
import OpenApi.Url.Host.Mapping
import OpenApi.Url.Host.Punycode

namespace OpenApi.Url.Host

open Text

/-! ## §1. Characters that no label holds. -/

/-- May a host not hold the character? -/
def isForbidden (c : Char) : Bool :=
  ['\x00', '\t', '\n', '\r', ' ', '#', '/', ':', '<', '>', '?', '@', '[', '\\', ']', '^', '|'].contains c

/-- May a domain name not hold the character? -/
def isForbiddenInName (c : Char) : Bool :=
  isForbidden c || c.toNat ≤ 0x1F || c = '%' || c.toNat = 0x7F

/-! ## §2. Labels in Punycode. -/

/-- What stands in front of a label in Punycode. -/
def punycodeMark : List Char := ['x', 'n', '-', '-']

/-- How long a label may be that is written out and not ASCII. -/
def maxWritten : Nat := 1000

/-- How long a label in Punycode may be, without its mark. -/
def maxEncoded : Nat := 2000

/-- The label in ASCII. -/
def asciiLabel (label : List Char) : List Char :=
  if label.all Punycode.isAscii then label else punycodeMark ++ Punycode.encode label

/-- The label written out, if it is in Punycode. -/
def writtenLabel? (label : List Char) : Option (List Char) :=
  if punycodeMark.isPrefixOf label then do
    let code := label.drop punycodeMark.length
    guard (code.all Punycode.isAscii && code.length ≤ maxEncoded)
    let written ← Punycode.decode? code
    guard (written.any fun c => !Punycode.isAscii c)
    guard (written.all isPlain && composed written = written)
    pure written
  else some label

/-! ## §3. Names. -/

/-- May the label stand in a name? -/
def isLabel (label : List Char) : Bool :=
  !label.any isForbiddenInName && !label.head?.any isMark && joinersFit [] label &&
    (label.all Punycode.isAscii || label.length ≤ maxWritten)

/-- A name in ASCII; none if the text is no name. -/
def asciiName? (text : List Char) : Option (List Char) := do
  let text ← text.mapM mapped?
  let labels ← (pieces (· = '.') (composed text.flatten)).mapM writtenLabel?
  guard (labels.all isLabel)
  guard (labels.all keepsDirection || !labels.any holdsRight)
  pure (joinWith ['.'] (labels.map asciiLabel))

end OpenApi.Url.Host
