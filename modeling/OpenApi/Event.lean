/-
  OpenApi.Event — what a build reports while it runs.

  Events are kept in the order in which they happen. Each has a level, a message and fields with their values
  as text.
-/
import OpenApi.Location
import OpenApi.Model.Kind
import OpenApi.Operation.Kinds

namespace OpenApi

/-- How much an event matters. -/
inductive EventLevel
  | trace
  | debug
  | info
  | warning
  deriving DecidableEq, Repr

/-- The name of a level. -/
def EventLevel.text : EventLevel → String
  | .trace => "trace"
  | .debug => "debug"
  | .info => "info"
  | .warning => "warn"

/-- Something that happened. -/
inductive Event
  | followedLink (link target : String)
  | loadedDocument (file : String)
  | registeredReference (reference declaredIn : String)
  /-- A referenced document could not be read; its models stay unknown. -/
  | unreadableDocument (file error : String)
  | loadingReferenced (file : String)
  | builtModel (model : String) (kind : ModelKind) (file : String)
  | ignoredMember (model : String) (member : Location)
  | builtOperation (method : HttpMethod) (path operationId : String)
  | duplicateTag (tag : String) (operation : Location)
  | skippedContent (contentType : String) (at_ : Location)
  | namedInlineBody (model contentType : String)
  | builtSecurityScheme (key schemeType : String)
  | builtSpec (entry : String) (documents models operations : Nat)
  deriving DecidableEq, Repr

namespace Event

/-- How much the event matters. -/
def level : Event → EventLevel
  | registeredReference .. => .trace
  | unreadableDocument .. | ignoredMember .. | duplicateTag .. | skippedContent .. => .warning
  | builtSpec .. => .info
  | _ => .debug

/-- What happened, in words. -/
def message : Event → String
  | followedLink .. => "followed link"
  | loadedDocument .. => "loaded document"
  | registeredReference .. => "registered reference"
  | unreadableDocument .. => "referenced document could not be loaded"
  | loadingReferenced .. => "loading referenced document"
  | builtModel .. => "built model"
  | ignoredMember .. => "ignoring allOf member without properties"
  | builtOperation .. => "built operation"
  | duplicateTag .. => "duplicate tag on operation"
  | skippedContent .. => "skipping content without schema"
  | namedInlineBody .. => "named inline body"
  | builtSecurityScheme .. => "built security scheme"
  | builtSpec .. => "built spec"

/-- The fields of an event and their values. -/
def fields : Event → List (String × String)
  | followedLink link target => [("link", link), ("target", target)]
  | loadedDocument file => [("file", file)]
  | registeredReference reference declaredIn =>
    [("reference", reference), ("declared_in", declaredIn)]
  | unreadableDocument file error => [("file", file), ("error", error)]
  | loadingReferenced file => [("file", file)]
  | builtModel model kind file => [("model", model), ("kind", kind.text), ("file", file)]
  | ignoredMember model member => [("model", model), ("member", member.text)]
  | builtOperation method path operationId =>
    [("method", method.text), ("path", path), ("operation_id", operationId)]
  | duplicateTag tag operation => [("tag", tag), ("operation", operation.text)]
  | skippedContent contentType place => [("content_type", contentType), ("at", place.text)]
  | namedInlineBody model contentType => [("model", model), ("content_type", contentType)]
  | builtSecurityScheme key schemeType => [("key", key), ("scheme_type", schemeType)]
  | builtSpec entry documents models operations =>
    [("entry", entry), ("documents", toString documents), ("models", toString models),
      ("operations", toString operations)]

end Event

end OpenApi
