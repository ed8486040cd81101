/-
  OpenApi.Spec.Basic — the tables of an API description.

  A spec holds every named model with the file that declares it, the references met so far, the operations
  and the groups they form by tag. Models stand in an arena under their numbers, beside which one table has
  the files that declare them and two more lead to the numbers, by name and by reference text. Names of models
  are distinct, and so are identifiers of operations; adding a second one fails and changes nothing. References
  are looked up when they are used, so a reference may come before the model it names.
-/
import OpenApi.Error
import OpenApi.Model.Basic
import OpenApi.Operation.Basic
import OpenApi.Text.Ordered

namespace OpenApi

/-! ## §1. The parts of a spec. -/

/-- Whom to ask about an API. -/
structure Contact where
  name : Option String
  email : Option String
  url : Option String
  deriving DecidableEq, Repr

/-- What an API says about itself. -/
structure Info where
  title : Option String
  description : Option String
  version : Option String
  contact : Option Contact
  deriving DecidableEq, Repr

/-- Where an API is served. -/
structure Server where
  url : String
  description : Option String
  name : Option String
  deriving DecidableEq, Repr

/-- A model and the file that declares it. -/
structure Declared where
  file : String
  model : Model

/-- The reference text that names a declared model. -/
def Declared.place (d : Declared) : String := SchemaRef.place d.file d.model.name

/-- The operations with one tag, by their identifiers in ascending order. -/
structure Api where
  tag : String
  operationIds : List String
  deriving DecidableEq, Repr

/-- An API description. -/
structure Spec where
  info : Info
  servers : List Server
  /-- The name of the document that was read first. -/
  entryFile : String
  /-- The models in the order in which they were declared; the position of a model is its number. -/
  arena : List Model
  /-- The file that declares each model, by number. -/
  modelFiles : List String
  /-- The number of each model, by name. -/
  byName : List (String × Nat)
  /-- The number of each model, by the reference text that names it. -/
  byReference : List (String × Nat)
  /-- The reference texts met so far, ascending. -/
  references : List String
  operations : List Operation
  /-- The groups of operations, by tag in ascending order. -/
  apis : List Api
  securitySchemes : List SecurityScheme

namespace Spec

/-- A spec without content. -/
def empty (entryFile : String) : Spec where
  info := ⟨none, none, none, none⟩
  servers := []
  entryFile := entryFile
  arena := []
  modelFiles := []
  byName := []
  byReference := []
  references := []
  operations := []
  apis := []
  securitySchemes := []

/-! ## §2. Models. -/

/-- The count of the models. -/
def count (s : Spec) : Nat := s.arena.length

/-- The model with a number. -/
def model? (s : Spec) (number : Nat) : Option Model := s.arena[number]?

/-- The file that declares the model with a number. -/
def modelFile? (s : Spec) (number : Nat) : Option String := s.modelFiles[number]?

/-- The models with the files that declare them, in the order in which they were declared. -/
def models (s : Spec) : List Declared := List.zipWith Declared.mk s.modelFiles s.arena

/-- The names of the models, ascending. -/
def modelNames (s : Spec) : List String := Text.ordered (s.byName.map Prod.fst)

/-- The number of the model with a name. -/
def numberNamed? (s : Spec) (name : String) : Option Nat := Keyed.value? name s.byName

/-- Is a model with this name declared? -/
def declares (s : Spec) (name : String) : Bool := (s.numberNamed? name).isSome

/-- The spec with one more model under the next number, which is written to all four tables. -/
def withModel (s : Spec) (file : String) (model : Model) : Spec :=
  { s with
    byReference := Keyed.put Prod.fst ((SchemaRef.toModel file model.name).reference, s.count) s.byReference
    byName := Keyed.put Prod.fst (model.name, s.count) s.byName
    arena := s.arena ++ [model]
    modelFiles := s.modelFiles ++ [file] }

/-- Adds a model and tells its number, unless its name is taken. -/
def addNumbered (s : Spec) (file : String) (model : Model) : Except Error (Nat × Spec) :=
  if s.declares model.name then .error ⟨.duplicateModel model.name, none⟩
  else .ok (s.count, s.withModel file model)

/-- Adds a model, unless its name is taken. -/
def addModel (s : Spec) (file : String) (model : Model) : Except Error Spec :=
  (s.addNumbered file model).map Prod.snd

/-- The model with a name. -/
def modelNamed? (s : Spec) (name : String) : Option Model := (s.numberNamed? name).bind s.model?

/-- The number that a reference text leads to. -/
def numberAt? (s : Spec) (reference : String) : Option Nat := Keyed.value? reference s.byReference

/-- The number of the model that a reference names. -/
def modelNumber (s : Spec) (r : SchemaRef) : Except Error Nat :=
  match s.numberAt? r.reference with
  | some number => .ok number
  | none => .error ⟨.missingReference r.reference s.modelNames, none⟩

/-- The error of a number that no model has. -/
def rangeError (number : Nat) : Error :=
  .ofViolation (.other ("model id " ++ toString number ++ " out of range"))

/-- The model that a reference names. -/
def getModel (s : Spec) (r : SchemaRef) : Except Error Model := do
  let number ← s.modelNumber r
  match s.model? number with
  | some m => pure m
  | none => throw (rangeError number)

/-- The model that a reference text names, with the file that declares it. -/
def declared? (s : Spec) (reference : String) : Option Declared := (s.numberAt? reference).bind (s.models[·]?)

/-- The models with their numbers, in the order in which they were declared. -/
def declaredModels (s : Spec) : List (Nat × Model) := s.arena.zipIdx.map fun e => (e.2, e.1)

/-- The models, ascending by name. -/
def sortedModels (s : Spec) : List Model := s.arena.mergeSort fun a b => !(b.name < a.name)

/-! ## §3. References. -/

/-- Records a reference. -/
def addReference (s : Spec) (r : SchemaRef) : Spec :=
  { s with references := Text.insertOrdered r.reference s.references }

/-- Was the reference recorded before? -/
def knowsReference (s : Spec) (r : SchemaRef) : Bool := s.references.contains r.reference

/-- The file of a reference text. -/
def fileOf? (reference : String) : Option String :=
  (Text.splitFirst '#' reference.toList).map fun p => String.ofList p.1

/-- The files that recorded references name, ascending. -/
def referencedFiles (s : Spec) : List String := Text.ordered (s.references.filterMap fileOf?)

/-- The recorded references that name no model, ascending. -/
def unresolvedReferences (s : Spec) : List String :=
  s.references.filter fun r => (s.numberAt? r).isNone

/-- Fails if a recorded reference names no model. -/
def validateReferences (s : Spec) : Except Error Unit :=
  match s.unresolvedReferences with
  | [] => .ok ()
  | references => .error ⟨.unresolvedReferences references, none⟩

/-! ## §4. Operations. -/

/-- The operation with an identifier. -/
def operation? (s : Spec) (id : String) : Option Operation :=
  Keyed.find? Operation.operationId id s.operations

/-- The group of a tag. -/
def api? (s : Spec) (tag : String) : Option Api := Keyed.find? Api.tag tag s.apis

/-- Adds an identifier to the group of a tag. -/
def groupUnder (id tag : String) : List Api → List Api
  | [] => [⟨tag, [id]⟩]
  | a :: rest =>
    if tag < a.tag then ⟨tag, [id]⟩ :: a :: rest
    else if tag = a.tag then ⟨tag, Text.insertOrdered id a.operationIds⟩ :: rest
    else a :: groupUnder id tag rest

/-- Adds an operation under each of its tags, unless its identifier is taken. -/
def addOperation (s : Spec) (o : Operation) : Except Error Spec :=
  if (s.operation? o.operationId).isSome then .error ⟨.duplicateOperation o.operationId, none⟩
  else
    .ok { s with
      operations := s.operations ++ [o]
      apis := o.tags.foldl (fun apis tag => groupUnder o.operationId tag apis) s.apis }

/-- The operations of a group, ascending by identifier. -/
def operationsOf (s : Spec) (a : Api) : List Operation := a.operationIds.filterMap s.operation?

/-! ## §5. Security schemes. -/

/-- Adds a security scheme. -/
def addSecurityScheme (s : Spec) (scheme : SecurityScheme) : Spec :=
  { s with securitySchemes := s.securitySchemes ++ [scheme] }

/-- The first security scheme with a key. -/
def securityScheme? (s : Spec) (key : String) : Option SecurityScheme :=
  Keyed.find? SecurityScheme.key key s.securitySchemes

end Spec

end OpenApi
