/-
  OpenApi.Keyed — lists of entries with a key.

  Entries keep the order in which their keys first came. `put` replaces the entry that has the key of the
  new one, in place, or adds the new one at the end; so keys that were distinct stay distinct.
-/

namespace OpenApi.Keyed

variable {α κ : Type} [DecidableEq κ]

/-- Puts an entry in the place of the first one with its key, or at the end. -/
def put (key : α → κ) (entry : α) : List α → List α
  | [] => [entry]
  | e :: rest => if key e = key entry then entry :: rest else e :: put key entry rest

/-- Puts entries one after the other. -/
def putAll (key : α → κ) (entries : List α) (more : List α) : List α :=
  more.foldl (fun entries e => put key e entries) entries

/-- The first entry with a key. -/
def find? (key : α → κ) (k : κ) (entries : List α) : Option α := entries.find? fun e => key e = k

/-- The value under a key, where entries are pairs. -/
def value? {β : Type} (k : κ) (entries : List (κ × β)) : Option β :=
  (find? Prod.fst k entries).map (·.2)

end OpenApi.Keyed
