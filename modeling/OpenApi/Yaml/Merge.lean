/-
  OpenApi.Yaml.Merge — merge keys.

  The entry `<<` of a mapping is taken out, the last entry moves into its place, and the entries of the
  mapping it holds, or of the mappings in the list it holds, follow in order unless their key is there
  already. Then the values are treated alike, so a merge works from the root down and a `<<` that comes
  with a merged mapping stays as an ordinary key.
-/
import OpenApi.Yaml.Value

namespace OpenApi.Yaml.Value

/-! ## §1. One mapping. -/

/-- Is it the key that merges? -/
def isMergeKey : Value → Bool
  | .scalar (.string "<<") => true
  | _ => false

/-- The list without its first item that satisfies `f`, in whose place the last item moves; and that
item. -/
def swapRemove (f : α → Bool) (items : List α) : Option (α × List α) :=
  match items.findIdx? f with
  | none => none
  | some i =>
    match items[i]?, items.getLast? with
    | some item, some last =>
      -- the last item has no place to move into when it is the one that goes
      if i + 1 = items.length then some (item, items.dropLast)
      else some (item, (items.dropLast).set i last)
    | _, _ => none

/-- The entries with those of `more` whose key is new behind them. -/
def extend (entries more : List (Value × Value)) : List (Value × Value) :=
  more.foldl (fun es e => if hasKey es e.1 then es else es ++ [e]) entries

/-- The entries with the items of a merge list, which must all be mappings, behind them. -/
def extendAll : (entries : List (Value × Value)) → List Value → Option (List (Value × Value))
  | entries, [] => some entries
  | entries, .mapping more :: rest => extendAll (extend entries more) rest
  | _, _ :: _ => none

/-- The entries of a mapping after its own merge; none if what is merged is no mapping or list. -/
def mergeEntries (entries : List (Value × Value)) : Option (List (Value × Value)) :=
  match swapRemove (fun e => isMergeKey e.1) entries with
  | none => some entries
  | some ((_, .mapping more), rest) => some (extend rest more)
  | some ((_, .sequence items), rest) => extendAll rest items
  | some _ => none

/-! ## §2. The whole value. -/

/-- The value with all merges applied at up to `depth` levels. -/
def mergedTo : (depth : Nat) → Value → Option Value
  | _, .scalar v => some (.scalar v)
  | 0, v => some v
  | depth + 1, .sequence items => (items.mapM (mergedTo depth)).map .sequence
  | depth + 1, .tagged t v => (mergedTo depth v).map (.tagged t)
  | depth + 1, .mapping entries =>
    match mergeEntries entries with
    | none => none
    | some entries =>
      (entries.mapM fun e => (mergedTo depth e.2).map fun v => (e.1, v)).map .mapping

/-- The value with all merges applied. -/
def merged (v : Value) : Option Value := v.mergedTo v.height

end OpenApi.Yaml.Value
