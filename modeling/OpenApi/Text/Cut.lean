/-
  OpenApi.Text.Cut — cutting a text at a character.

  A text is a list of characters here. `splitFirst` and `splitLast` cut at the first or last
  occurrence of a character, which belongs to neither part; `pieces` cuts at every separator.
-/

namespace OpenApi.Text

/-! ## §1. Cutting once. -/

/-- What stands before and after the first `c`, if there is one. -/
def splitFirst (c : Char) : List Char → Option (List Char × List Char)
  | [] => none
  | d :: s =>
    if d = c then some ([], s)
    else (splitFirst c s).map fun p => (d :: p.1, p.2)

/-- What stands before and after the last `c`, if there is one. -/
def splitLast (c : Char) : List Char → Option (List Char × List Char)
  | [] => none
  | d :: s =>
    match splitLast c s with
    | some p => some (d :: p.1, p.2)
    | none => if d = c then some ([], s) else none

/-- The text after `head`, if it starts with `head`. -/
def afterHead : List Char → List Char → Option (List Char)
  | [], s => some s
  | _ :: _, [] => none
  | h :: hs, c :: s => if h = c then afterHead hs s else none

/-! ## §2. Cutting everywhere. -/

/-- The parts between separators: one more than there are separators. -/
def pieces (isSeparator : Char → Bool) : List Char → List (List Char)
  | [] => [[]]
  | c :: s =>
    if isSeparator c then [] :: pieces isSeparator s
    else
      match pieces isSeparator s with
      | [] => [[c]]
      | p :: ps => (c :: p) :: ps

/-- The parts with `joint` between each two of them. -/
def joinWith (joint : List Char) : List (List Char) → List Char
  | [] => []
  | [p] => p
  | p :: q :: ps => p ++ joint ++ joinWith joint (q :: ps)

/-- The first line of a text, without its line feed or the carriage return before it. -/
def firstLine (s : List Char) : List Char :=
  match splitFirst '\n' s with
  | none => s
  | some (line, _) => if line.getLast? = some '\r' then line.dropLast else line

/-! ## §3. The same on strings. -/

/-- The texts in order, with a comma and a space between each two of them. -/
def commaList (texts : List String) : String := String.intercalate ", " texts

end OpenApi.Text
