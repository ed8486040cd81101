/-
  OpenApi.Loader.Disk — files by their absolute path.

  A disk is a snapshot of files and directories. A path is followed from the root one name at a time: empty
  names and single dots stay in the directory, double dots lead to the one above, and every name but the
  last must be that of a directory. A path in text form may be taken apart into a directory and a name.
-/
import OpenApi.Text.Cut
import OpenApi.Text.Utf8

namespace OpenApi

open Text

/-- Names that lead from the root to a file or directory. -/
abbrev Names := List (List Char)

/-- Files with their bytes, and directories. -/
structure Disk where
  files : List (Names × List UInt8)
  /-- Directories beyond those that hold files. -/
  directories : List Names

/-! ## §1. Paths in text form. -/

namespace FilePath

/-- Is the character the separator of names? -/
def isSeparator (c : Char) : Bool := c = '/'

/-- Is the name passed over inside a path? -/
def isIdle (name : List Char) : Bool := name.isEmpty || name = ['.']

/-- The path `relative` as seen from `directory`. -/
def under (directory relative : List Char) : List Char :=
  match relative with
  | '/' :: _ => relative
  | _ =>
    if directory.isEmpty || directory.getLast? = some '/' then directory ++ relative
    else directory ++ ['/'] ++ relative

/-- The names of a path, without those that are passed over. -/
def names (path : List Char) : Names := (pieces isSeparator path).filter fun n => !isIdle n

/-- The names from the last one that counts backwards; a dot at the start of a relative path counts. -/
def trimmed (rooted : Bool) : (reversed : Names) → Names
  | [] => []
  | [n] => if n.isEmpty || (rooted && n = ['.']) then [] else [n]
  | n :: rest => if isIdle n then trimmed rooted rest else n :: rest

/-- The directory of a path, and the name in it. A path that ends in double dots has no name. -/
def split (path : List Char) : List Char × List Char :=
  let rooted := path.head? = some '/'
  let parts := pieces isSeparator (if rooted then path.drop 1 else path)
  match trimmed rooted parts.reverse with
  | [] => ([], [])
  | name :: rest =>
    let directory := joinWith ['/'] (trimmed rooted rest).reverse
    (if rooted then '/' :: directory else directory,
      -- dots name no file
      if name = ['.'] || name = ['.', '.'] then [] else name)

end FilePath

/-! ## §2. Following a path. -/

namespace Disk

/-- Is there a directory? -/
def isDirectory (d : Disk) (at_ : Names) : Bool :=
  at_.isEmpty || d.directories.contains at_ ||
    d.files.any fun f => at_.isPrefixOf f.1 && at_.length < f.1.length

/-- Follows one name from a directory. -/
def follow (d : Disk) (at_ : Names) (name : List Char) : Option Names :=
  if d.isDirectory at_ then
    if FilePath.isIdle name then some at_
    else if name = ['.', '.'] then some at_.dropLast
    else some (at_ ++ [name])
  else none

/-- The bytes of the file at a path from the root. -/
def bytes? (d : Disk) (path : List Char) : Option (List UInt8) := do
  let place ← (pieces FilePath.isSeparator path).foldlM d.follow []
  (d.files.find? fun f => f.1 = place).map (·.2)

/-- The text of the file at a path from the root. -/
def read? (d : Disk) (path : List Char) : Option String := do
  let bytes ← d.bytes? path
  (Utf8.decode? bytes).map String.ofList

end Disk

end OpenApi
