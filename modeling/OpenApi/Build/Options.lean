/-
  OpenApi.Build.Options — how a description is built.

  Options are written as a table of TOML; what is left out has its standard value. Keys are looked at in
  ascending order, and the first one that is unknown or has a value of the wrong kind is the error.
-/
import OpenApi.Loader.Basic
import OpenApi.Toml.Reader

namespace OpenApi.Build

/-- How strictly a description is read, and what operations without tags get. -/
structure Options where
  /-- Is a key that nothing reads an error? -/
  strict : Bool := false
  /-- The tag of operations that declare none. -/
  defaultTag : String := "default"
  /-- Must every reference name a model, and every allOf model flatten? -/
  validateReferences : Bool := true
  deriving DecidableEq, Repr, Inhabited

namespace Options

/-- What is wrong with a key of a table of options. -/
def unknownField (key : String) : String :=
  "unknown field \x60" ++ key ++
    "\x60, expected one of \x60strict\x60, \x60default-tag\x60, \x60validate-references\x60"

/-- Takes one entry over; fails with what can be said about it. -/
def set (o : Options) : String × Toml.Value → Except (Option String) Options
  | ("strict", .boolean strict) => .ok { o with strict }
  | ("default-tag", .text defaultTag) => .ok { o with defaultTag }
  | ("validate-references", .boolean validateReferences) => .ok { o with validateReferences }
  -- the key is known but its value is of another kind, or the key is unknown
  | (key, _) =>
    if ["strict", "default-tag", "validate-references"].contains key then .error none
    else .error (some (unknownField key))

/-- The options in a table. -/
def ofEntries (entries : Toml.Entries) : Except (Option String) Options :=
  (entries.mergeSort fun a b => !(b.1 < a.1)).foldlM set {}

/-- Reads options from a text. -/
def parse (text filename : String) : Except Error Options :=
  let source : Source := ⟨text, filename⟩
  match Toml.parse text with
  | none => .error (source.malformed none)
  | some entries => (ofEntries entries).mapError source.malformed

/-- Reads options from a file. -/
def ofFile (files : Disk) (path : String) : Except Error Options := do
  let text ← Loader.readFile files path.toList
  parse text path

end Options

end OpenApi.Build
