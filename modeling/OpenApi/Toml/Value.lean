/-
  OpenApi.Toml.Value — tables of TOML, and how they grow.

  A table remembers how it came to be, since that decides what may still be added to it: a table with a
  header is never declared again, a table made by dotted keys grows by dotted keys only, and what is written
  in line is complete. No key is given twice.
-/
import OpenApi.Keyed

namespace OpenApi.Toml

/-! ## §1. Values. -/

/-- How a table came to be. -/
inductive TableOrigin
  /-- A header below it needed it. -/
  | implied
  /-- A dotted key needed it. -/
  | dotted
  /-- It has a header of its own. -/
  | declared
  /-- It is written in line, and complete. -/
  | inLine
  deriving DecidableEq, Repr

/-- A value. Numbers, dates and times are checked but not kept. -/
inductive Value
  | boolean (value : Bool)
  | text (value : String)
  | scalar
  /-- An array in line, complete. -/
  | array (items : List Value)
  | table (origin : TableOrigin) (entries : List (String × Value))
  /-- The tables of one header in double brackets, in order. -/
  | tables (entries : List (List (String × Value)))

/-- The entries of a table. -/
abbrev Entries := List (String × Value)

/-! ## §2. Growing tables. -/

/-- Puts a value under a key. -/
def putEntry (key : String) (value : Value) (entries : Entries) : Entries :=
  Keyed.put Prod.fst (key, value) entries

/-- Adds a value under a key that is not there yet. -/
def addEntry (key : String) (value : Value) (entries : Entries) : Option Entries :=
  match Keyed.value? key entries with
  | none => some (putEntry key value entries)
  | some _ => none

/-- Changes the table that a header leads to; tables on the way are made where they are missing. Of the
tables of a header in double brackets the last one counts. -/
def changeAt (change : Entries → Option Entries) : List String → Entries → Option Entries
  | [], entries => change entries
  | key :: path, entries =>
    match Keyed.value? key entries with
    | none => (changeAt change path []).map fun below => putEntry key (.table .implied below) entries
    | some (.table origin below) =>
      if origin = .inLine then none
      else (changeAt change path below).map fun below => putEntry key (.table origin below) entries
    | some (.tables ts) =>
      match ts.getLast? with
      | none => none
      | some below =>
        (changeAt change path below).map fun below =>
          putEntry key (.tables (ts.dropLast ++ [below])) entries
    | some _ => none

/-- Adds a value under a dotted key. The tables on the way must not be declared by a header, and the last
one must be made by dotted keys. -/
def addDotted (key : String) (value : Value) : List String → Entries → Option Entries
  | [], entries => addEntry key value entries
  | part :: path, entries =>
    match Keyed.value? part entries with
    | none => (addDotted key value path []).map fun below => putEntry part (.table .dotted below) entries
    | some (.table origin below) =>
      -- a table that a header only passed through may be passed again, not added to
      if origin = .dotted || (origin = .implied && !path.isEmpty) then
        (addDotted key value path below).map fun below => putEntry part (.table origin below) entries
      else none
    | some (.tables ts) =>
      match path, ts.getLast? with
      | _ :: _, some below =>
        (addDotted key value path below).map fun below =>
          putEntry part (.tables (ts.dropLast ++ [below])) entries
      | _, _ => none
    | some _ => none

/-- Declares the table under a key, which may be there only because a header below needed it. -/
def declareTable (key : String) (entries : Entries) : Option Entries :=
  match Keyed.value? key entries with
  | none => some (putEntry key (.table .declared []) entries)
  | some (.table .implied below) => some (putEntry key (.table .declared below) entries)
  | some _ => none

/-- Declares one more table under a key. -/
def declareNext (key : String) (entries : Entries) : Option Entries :=
  match Keyed.value? key entries with
  | none => some (putEntry key (.tables [[]]) entries)
  | some (.tables ts) => some (putEntry key (.tables (ts ++ [[]])) entries)
  | some _ => none

end OpenApi.Toml
