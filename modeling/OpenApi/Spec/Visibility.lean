/-
  OpenApi.Spec.Visibility — what requests and responses leave out.

  A request never carries properties that are read-only, a response none that are write-only. A view leaves
  out the properties that are required and flagged, and those whose schema leads to one that is: through
  references, items, values and inline objects. A walk passes each model once, so it ends on models that
  refer to each other, and before the limit of depth that the recursion goes by.
-/
import OpenApi.Spec.Discriminator

namespace OpenApi

/-! ## §1. Flags. -/

/-- The flag that a view goes by. -/
inductive Visibility
  /-- Read-only properties, which requests leave out. -/
  | readOnly
  /-- Write-only properties, which responses leave out. -/
  | writeOnly
  deriving DecidableEq, Repr

namespace Visibility

/-- Does the property have the flag? -/
def flags (v : Visibility) (p : Property) : Bool :=
  match v with
  | readOnly => p.readOnly
  | writeOnly => p.writeOnly

/-- Is the property required and flagged? -/
def omits (v : Visibility) (p : Property) : Bool := p.required && v.flags p

end Visibility

/-! ## §2. Walks. -/

/-- Walks over models: they remember the names of the models they passed, and may fail. -/
abbrev Walk := StateT (List String) (Except Error)

mutual

/-- Does the schema lead to a property that is required and flagged? `visit` answers for references. -/
def Schema.leads (v : Visibility) (visit : SchemaRef → Walk Bool) : Schema → Walk Bool
  | .ref r => visit r
  | .array ⟨items, _, _, _⟩ => items.leads v visit
  | .record values => values.leads v visit
  | .object properties => anyLeads v visit properties
  | _ => pure false

/-- Is one of the properties required and flagged, or does its schema lead to one that is? -/
def anyLeads (v : Visibility) (visit : SchemaRef → Walk Bool) : List Property → Walk Bool
  | [] => pure false
  | ⟨_, _, _, required, readOnly, writeOnly, _, _, schema⟩ :: rest =>
    if required && (match v with | .readOnly => readOnly | .writeOnly => writeOnly) then pure true
    else do
      if ← schema.leads v visit then pure true else anyLeads v visit rest

end

/-- Does `visit` answer yes for one of the references? The first such answer ends the walk. -/
def anyVisited (visit : SchemaRef → Walk Bool) : List SchemaRef → Walk Bool
  | [] => pure false
  | r :: rest => do
    if ← visit r then pure true else anyVisited visit rest

namespace Spec

/-- Does what a model is made of lead to a property that is required and flagged? -/
def nextLeads (s : Spec) (v : Visibility) (visit : SchemaRef → Walk Bool) : Model → Walk Bool
  | .oneOf u => anyVisited visit u.memberReferences
  | .array a => a.array.items.leads v visit
  | .enumeration _ => pure false
  | m => do
    let properties ← StateT.lift (s.allProperties m)
    anyLeads v visit properties

/-- A walk to a reference is one from the model that it refers to. -/
def follow (s : Spec) (leads : Model → Walk Bool) (r : SchemaRef) : Walk Bool := do
  let target ← StateT.lift (s.getModel r)
  leads target

/-- Does the model lead to a property that is required and flagged? A model that was passed before does
not count again. A walk passes each model once, so `depth` is at most their number. -/
def modelLeads (s : Spec) (v : Visibility) : (depth : Nat) → Model → Walk Bool
  | depth, m => do
    let passed ← get
    if passed.contains m.name then pure false
    else
      match depth with
      | 0 => throw depthError
      | depth + 1 => do
        -- the model counts as passed while it is walked itself, which ends cycles
        set (m.name :: passed)
        s.nextLeads v (s.follow (modelLeads s v depth)) m

/-- A bound on the number of models that a walk passes. -/
def walkBound (s : Spec) : Nat := s.count + 2

/-- Does the walk to a reference end at a property that is required and flagged? -/
def visit (s : Spec) (v : Visibility) : SchemaRef → Walk Bool := s.follow (s.modelLeads v s.walkBound)

/-- Does the model lead to a property that is required and flagged? -/
def modelHas (s : Spec) (v : Visibility) (m : Model) : Except Error Bool :=
  (s.modelLeads v s.walkBound m).run' []

/-- Does the schema lead to a property that is required and flagged? -/
def schemaHas (s : Spec) (v : Visibility) (schema : Schema) : Except Error Bool :=
  (schema.leads v (s.visit v)).run' []

/-! ## §3. Views. -/

/-- Does a view leave the property out? Each property is walked from afresh. -/
def isOmitted (s : Spec) (v : Visibility) (p : Property) : Except Error Bool :=
  if v.omits p then .ok true else s.schemaHas v p.schema

/-- The properties for which the test holds, tested in order. -/
def filterProperties (test : Property → Except Error Bool) :
    List Property → Except Error (List Property)
  | [] => .ok []
  | p :: rest => do
    let isKept ← test p
    let kept ← filterProperties test rest
    pure (if isKept then p :: kept else kept)

/-- The properties of a model that a view leaves out. -/
def omitted (s : Spec) (v : Visibility) (m : Model) : Except Error (List Property) := do
  let properties ← s.allProperties m
  filterProperties (s.isOmitted v) properties

end Spec

end OpenApi
