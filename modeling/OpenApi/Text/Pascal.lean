/-
  OpenApi.Text.Pascal — identifiers in Pascal case.

  A text is cut at `_`, `-`, `.` and space; each part gets an upper-case first character and keeps
  the rest as it is; the parts are put together without a joint.
-/
import OpenApi.Text.Cut
import OpenApi.Text.Uppercase

namespace OpenApi.Text

/-- Does the character separate the words of an identifier? -/
def isWordBreak (c : Char) : Bool := c = '_' || c = '-' || c = '.' || c = ' '

/-- The word with its first character in upper case. -/
def capitalized : List Char → List Char
  | [] => []
  | c :: s => upperForm c ++ s

/-- The text in Pascal case: `pet_type` gives `PetType`, and `petType` too. -/
def pascalCase (s : String) : String :=
  String.ofList ((pieces isWordBreak s.toList).flatMap capitalized)

end OpenApi.Text
