/-
  OpenApi.Spec.Discriminator — telling the members of a union apart.

  An explicit mapping says which value stands for which model. Without one, a member that is a union stands
  under the name of its class, any other under the constant value of its discriminating property, or under
  the name of its class if that property is no constant.
-/
import OpenApi.Spec.Composition

namespace OpenApi

namespace OneOfModel

/-- The references to the members: the targets of the mapping, or the listed ones. -/
def memberReferences (m : OneOfModel) : List SchemaRef :=
  if m.discriminator.mapping.isEmpty then m.members else m.discriminator.mapping.map (·.2)

end OneOfModel

namespace Spec

/-- The value that stands for a member, and the member. -/
def memberValue (s : Spec) (property : String) (r : SchemaRef) : Except Error (String × Model) := do
  let model ← s.getModel r
  match model with
  | .oneOf _ => pure (r.className, model)
  | _ =>
    match (← s.property model property).schema with
    | .constant value => pure (value, model)
    | _ => pure (r.className, model)

/-- The members of a union by the values that stand for them. -/
def mappedModels (s : Spec) (m : OneOfModel) : Except Error (List (String × Model)) :=
  if m.discriminator.mapping.isEmpty then
    match m.discriminator.propertyName with
    | none => .error (.ofViolation (.withoutDiscriminator m.name))
    | some property =>
      (m.members.mapM (s.memberValue property)).map (Keyed.putAll Prod.fst [])
  else
    m.discriminator.mapping.mapM fun entry => (s.getModel entry.2).map fun model => (entry.1, model)

end Spec

end OpenApi
