/-
  OpenApi.Error — what can go wrong, and how it is told.

  An error is a cause, with the span of the source text it is about if that is known. The class, code,
  message, help and label of an error are functions of its cause.
-/
import OpenApi.Location
import OpenApi.Model.Kind

namespace OpenApi

/-! ## §1. Causes. -/

/-- Coarse classes of errors. -/
inductive ErrorClass
  | io
  | parse
  | structural
  | reference
  | unsupportedShape
  | invariant
  deriving DecidableEq, Repr

/-- Ways in which models contradict each other. -/
inductive Violation
  /-- An allOf model is its own super model; the chain ends with the name it starts a cycle with. -/
  | cyclicInheritance (chain : List String)
  /-- An allOf model extends a model that has no properties. -/
  | superWithoutProperties (model super : String) (kind : ModelKind)
  /-- A oneOf model has neither a mapping nor the name of a discriminating property. -/
  | withoutDiscriminator (model : String)
  /-- Anything else, in words. -/
  | other (message : String)
  deriving DecidableEq, Repr

/-- Why something failed. -/
inductive Cause
  /-- A file could not be read as text. -/
  | unreadable (path : String)
  /-- A link could not be followed. -/
  | brokenLink (link message : String)
  /-- A text is not well-formed; `detail` says more where the text is well-formed but not allowed. -/
  | malformed (filename : String) (detail : Option String)
  | missingField (key : String) (keys : List String) (location : Location)
  | wrongKind (expected found : String) (location : Location)
  | invalidVariant (value : String) (expected : List String) (location : Location)
  | invalidValue (message : String) (location : Option Location)
  | unusedKeys (filename : String) (pointers : List String)
  | missingReference (reference : String) (known : List String)
  | unresolvedReferences (references : List String)
  | invalidReference (reference : String) (location : Option Location)
  | unsupported (what : String) (location : Location)
  | violation (violation : Violation)
  | duplicateModel (name : String)
  | duplicateOperation (operationId : String)
  | missingProperty (property model : String)
  deriving DecidableEq, Repr

/-- A cause and the part of the source text it is about. -/
structure Error where
  cause : Cause
  span : Option Span := none
  deriving DecidableEq, Repr

/-! ## §2. Classes and codes. -/

/-- The name of a class. -/
def ErrorClass.text : ErrorClass → String
  | .io => "io"
  | .parse => "parse"
  | .structural => "structural"
  | .reference => "reference"
  | .unsupportedShape => "unsupported shape"
  | .invariant => "invariant"

namespace Cause

/-- The class of a cause. -/
def errorClass : Cause → ErrorClass
  | unreadable _ | brokenLink _ _ => .io
  | malformed _ _ => .parse
  | missingField _ _ _ | wrongKind _ _ _ | invalidVariant _ _ _ | invalidValue _ _
  | unusedKeys _ _ => .structural
  | missingReference _ _ | unresolvedReferences _ | invalidReference _ _ => .reference
  | unsupported _ _ => .unsupportedShape
  | violation _ | duplicateModel _ | duplicateOperation _ | missingProperty _ _ => .invariant

/-- The diagnostic code of a cause. -/
def code : Cause → String
  | unreadable _ => "oaf::io"
  | brokenLink _ _ => "oaf::link"
  | malformed _ _ => "oaf::parse_error"
  | missingField _ _ _ => "oaf::missing_field"
  | wrongKind _ _ _ => "oaf::wrong_kind"
  | invalidVariant _ _ _ => "oaf::invalid_variant"
  | invalidValue _ _ => "oaf::invalid_value"
  | unusedKeys _ _ => "oaf::unused_keys"
  | missingReference _ _ => "oaf::missing_reference"
  | unresolvedReferences _ => "oaf::unresolved_references"
  | invalidReference _ _ => "oaf::invalid_reference"
  | unsupported _ _ => "oaf::unsupported"
  | violation _ => "oaf::invariant"
  | duplicateModel _ => "oaf::duplicate_model"
  | duplicateOperation _ => "oaf::duplicate_operation"
  | missingProperty _ _ => "oaf::missing_property"

end Cause

/-! ## §3. Texts. -/

/-- What contradicts what, in words. -/
def Violation.message : Violation → String
  | cyclicInheritance chain => "cyclic allOf inheritance: " ++ String.intercalate " -> " chain
  | superWithoutProperties model super kind =>
    "allOf model '" ++ model ++ "' extends '" ++ super ++ "', which is a " ++ kind.text ++ " model"
  | withoutDiscriminator model =>
    "oneOf model '" ++ model ++ "' has no discriminator propertyName"
  | other message => message

namespace Cause

/-- What happened, in words. -/
def message : Cause → String
  | unreadable path => "failed to read '" ++ path ++ "'"
  | brokenLink link message => "failed to follow link '" ++ link ++ "': " ++ message
  | malformed filename detail =>
    "failed to parse " ++ filename ++
      (match detail with
        | some d => ": " ++ d
        | none => "")
  | missingField key keys location =>
    "missing required key '" ++ key ++ "' (keys: [" ++ Text.commaList keys ++ "]) at " ++ location.text
  | wrongKind expected found location =>
    "expected a " ++ expected ++ " but found a " ++ found ++ " at " ++ location.text
  | invalidVariant value _ location => "invalid value '" ++ value ++ "' at " ++ location.text
  | invalidValue message location => message ++ Location.suffixText location
  | unusedKeys filename pointers => "unused keys in " ++ filename ++ ": " ++ Text.commaList pointers
  | missingReference reference known =>
    "missing $ref '" ++ reference ++ "' (known models: [" ++ Text.commaList known ++ "])"
  | unresolvedReferences references => "unresolved references: " ++ Text.commaList references
  | invalidReference reference location =>
    "invalid $ref '" ++ reference ++ "'" ++ Location.suffixText location
  | unsupported what location => "unsupported " ++ what ++ " at " ++ location.text
  | violation v => v.message
  | duplicateModel name => "duplicate model '" ++ name ++ "'"
  | duplicateOperation id => "duplicate operation id '" ++ id ++ "'"
  | missingProperty property model => "model '" ++ model ++ "' has no property '" ++ property ++ "'"

/-- What can be done about it. -/
def help : Cause → Option String
  | brokenLink _ _ =>
    some "a .link file holds a single line with a path or URL to the real document"
  | invalidVariant _ expected _ => some ("expected one of: " ++ Text.commaList expected)
  | unusedKeys _ _ =>
    some "these keys are not supported; remove them or build without strict mode"
  | unresolvedReferences _ =>
    some "every $ref must name a schema declared under components.schemas"
  | invalidReference _ _ =>
    some ("references look like '#/components/schemas/Name' " ++
      "or 'other.yaml#/components/schemas/Name'")
  | duplicateOperation _ =>
    some "give one of the operations an explicit, distinct operationId"
  | _ => none

/-- What is written beside the source text that the error is about. -/
def label : Cause → Option String
  | missingField key _ _ => some ("'" ++ key ++ "' expected in this mapping")
  | wrongKind expected _ _ => some ("expected a " ++ expected)
  | invalidVariant _ _ _ => some "unknown value"
  | invalidValue message _ => some message
  | unusedKeys _ _ => some "never read"
  | invalidReference _ _ => some "invalid reference"
  | unsupported _ _ => some "unsupported"
  | _ => none

end Cause

namespace Error

/-- The class of an error. -/
def errorClass (e : Error) : ErrorClass := e.cause.errorClass

/-- The message of an error. -/
def message (e : Error) : String := e.cause.message

/-- An error about models that contradict each other. -/
def ofViolation (v : Violation) : Error := ⟨.violation v, none⟩

/-- The label of an error together with the span it is attached to. -/
def label (e : Error) : Option (String × Span) := do
  let text ← e.cause.label
  let span ← e.span
  pure (text, span)

end Error

end OpenApi
