/-
  OpenApi.Document.Lookup — the result of looking a field up.

  A lookup holds a value or the reason why there is none. A missing value is no error by itself: the
  caller takes a default, or asks for an error, which then points at the place of the lookup.
-/
import OpenApi.Source

namespace OpenApi

/-! ## §1. Lookups. -/

/-- Where something was looked up: in which text, at which path, under which key. -/
structure Origin where
  source : Source
  path : Path
  key : String

/-- Why a lookup has no value. -/
inductive Reason
  /-- The key is absent or null; `keys` are those that are there. -/
  | absent (keys : List String)
  /-- There was a value, but it was rejected. -/
  | rejected (message : String)
  deriving DecidableEq, Repr

/-- What a lookup found. -/
inductive Outcome (α : Type)
  | present (value : α)
  | missing (reason : Reason)

/-- The result of a lookup, and where it was made, if it was made in a document. -/
structure Lookup (α : Type) where
  outcome : Outcome α
  origin : Option Origin

/-- The error for a missing value. -/
def Reason.error (origin : Option Origin) : Reason → Error
  | .absent keys =>
    match origin with
    | some o => o.source.missingField o.path o.key keys
    | none => ⟨.invalidValue "value is missing" none, none⟩
  | .rejected message =>
    match origin with
    | some o => o.source.invalidValue (o.path ++ [o.key]) message
    | none => ⟨.invalidValue message none, none⟩

namespace Lookup

variable {α β : Type}

/-! ## §2. Making lookups. -/

/-- A value that was not looked up in a document. -/
def present (value : α) : Lookup α := ⟨.present value, none⟩

/-- No value, for a reason in words. -/
def missing (message : String) : Lookup α := ⟨.missing (.rejected message), none⟩

/-- The lookup of an optional value. -/
def ofOption : Option α → Lookup α
  | some value => present value
  | none => missing "value is missing"

/-! ## §3. Using lookups. -/

/-- Is there a value? -/
def isPresent (l : Lookup α) : Bool :=
  match l.outcome with
  | .present _ => true
  | .missing _ => false

/-- The value, or the error that tells why there is none. -/
def required (l : Lookup α) : Except Error α :=
  match l.outcome with
  | .present value => .ok value
  | .missing reason => .error (reason.error l.origin)

/-- The value, if there is one. -/
def optional (l : Lookup α) : Option α :=
  match l.outcome with
  | .present value => some value
  | .missing _ => none

/-- The value, or a default. -/
def getD (l : Lookup α) (default : α) : α := l.optional.getD default

/-- The lookup of a function of the value. -/
def map (f : α → β) (l : Lookup α) : Lookup β :=
  match l.outcome with
  | .present value => ⟨.present (f value), l.origin⟩
  | .missing reason => ⟨.missing reason, l.origin⟩

/-- The lookup with its value rejected unless `f` accepts it. -/
def filter (f : α → Bool) (message : String) (l : Lookup α) : Lookup α :=
  match l.outcome with
  | .present value =>
    if f value then l else ⟨.missing (.rejected message), l.origin⟩
  | .missing _ => l

/-- The lookup of what `f` makes of the value; the value is rejected if that is nothing. -/
def filterMap (f : α → Option β) (message : String) (l : Lookup α) : Lookup β :=
  match l.outcome with
  | .present value =>
    match f value with
    | some narrowed => ⟨.present narrowed, l.origin⟩
    | none => ⟨.missing (.rejected message), l.origin⟩
  | .missing reason => ⟨.missing reason, l.origin⟩

/-- Why there is no value, in words. -/
def message (l : Lookup α) : Option String :=
  match l.outcome with
  | .present _ => none
  | .missing reason => some (reason.error l.origin).message

/-- The lookup of a text, in words. -/
def text (l : Lookup String) : String :=
  match l.outcome with
  | .present value => "Present(" ++ value ++ ")"
  | .missing reason => "Missing(" ++ (reason.error l.origin).message ++ ")"

end Lookup

end OpenApi
