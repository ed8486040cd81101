/-
  OpenApi.Model.Basic — named models.

  A model is one of five kinds. Only generic and allOf models have properties. What an allOf model inherits
  is not stored in it: its super models are looked up whenever its properties are asked for.
-/
import OpenApi.Model.Kind
import OpenApi.Schema.Basic

namespace OpenApi

/-! ## §1. The kinds of models. -/

/-- An object with declared properties. -/
structure GenericModel where
  name : String
  description : Option String
  properties : List Property

/-- An enumeration. -/
structure EnumModel where
  name : String
  description : Option String
  /-- The primitive type of the values. -/
  valueType : String
  values : List String

/-- How the members of a union are told apart: a property, and perhaps a model for each of its values. -/
structure Discriminator where
  propertyName : Option String
  mapping : List (String × SchemaRef)

/-- A union of referenced models. -/
structure OneOfModel where
  name : String
  description : Option String
  members : List SchemaRef
  discriminator : Discriminator

/-- A model that inherits from referenced models and from inline objects. -/
structure AllOfModel where
  name : String
  description : Option String
  /-- The names that are required, wherever they are declared. -/
  required : List String
  supers : List SchemaRef
  /-- The properties of the inline members. -/
  inlineSupers : List (List Property)

/-- A named array. -/
structure ArrayModel where
  name : String
  description : Option String
  array : ArraySchema

/-- A named model. -/
inductive Model
  | generic (model : GenericModel)
  | enumeration (model : EnumModel)
  | oneOf (model : OneOfModel)
  | allOf (model : AllOfModel)
  | array (model : ArrayModel)

/-! ## §2. What all models have. -/

namespace Model

/-- The name of a model. -/
def name : Model → String
  | generic m => m.name
  | enumeration m => m.name
  | oneOf m => m.name
  | allOf m => m.name
  | array m => m.name

/-- The description of a model. -/
def description : Model → Option String
  | generic m => m.description
  | enumeration m => m.description
  | oneOf m => m.description
  | allOf m => m.description
  | array m => m.description

/-- The kind of a model. -/
def kind : Model → ModelKind
  | generic _ => .generic
  | enumeration _ => .enumeration
  | oneOf _ => .oneOf
  | allOf _ => .allOf
  | array _ => .array

/-- Can a model have properties? -/
def isObject : Model → Bool
  | generic _ => true
  | allOf _ => true
  | _ => false

end Model

/-! ## §3. Adding properties. -/

/-- Puts a property into an object: one with its name is replaced in place. -/
def putProperty (properties : List Property) (p : Property) : List Property :=
  Keyed.put Property.name p properties

namespace GenericModel

/-- A model without properties. -/
def empty (name : String) : GenericModel := ⟨name, none, []⟩

/-- Adds a property, which the model then owns. -/
def insert (m : GenericModel) (p : Property) : GenericModel :=
  { m with properties := putProperty m.properties { p with owner := some m.name } }

/-- The property with a name. -/
def property? (m : GenericModel) (name : String) : Option Property :=
  Keyed.find? Property.name name m.properties

end GenericModel

namespace AllOfModel

/-- The first inline property with a name. -/
def inlineProperty? (m : AllOfModel) (name : String) : Option Property :=
  m.inlineSupers.findSome? (Keyed.find? Property.name name)

end AllOfModel

end OpenApi
