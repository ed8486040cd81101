/-
  OpenApi.Text.Ordered — sets of texts in ascending order.

  Texts are compared character by character, by code point, which is the order of their UTF-8 bytes too.
-/

namespace OpenApi.Text

/-- Puts a text into an ascending list, unless it is there already. -/
def insertOrdered (text : String) : List String → List String
  | [] => [text]
  | t :: rest =>
    if text < t then text :: t :: rest
    else if text = t then t :: rest
    else t :: insertOrdered text rest

/-- The texts in ascending order, each once. -/
def ordered (texts : List String) : List String :=
  texts.foldl (fun sorted text => insertOrdered text sorted) []

end OpenApi.Text
