/-
  OpenApi.Spelled — closed sets of values that documents spell out.
-/

namespace OpenApi

/-- A closed set of values, each with its spelling in documents. -/
class Spelled (α : Type) where
  /-- The values, in the order in which messages list them. -/
  all : List α
  /-- The spelling of a value. -/
  spelling : α → String

/-- The value with this spelling. -/
def Spelled.ofText? {α : Type} [Spelled α] (text : String) : Option α :=
  (all : List α).find? fun value => spelling value = text

end OpenApi
