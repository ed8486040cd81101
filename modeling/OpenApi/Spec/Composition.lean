/-
  OpenApi.Spec.Composition — the properties of models that inherit.

  An allOf model has the properties of its super models in order, then its own; a later property takes the
  place of an earlier one of the same name. Super models are looked up in the spec, so the order of
  declarations does not matter. The names of the models being expanded form a chain; a name that comes up
  again is a cycle. A chain holds each name once, so it is no longer than the table of models and one, and
  the limit of depth that the recursion goes by is never met.
-/
import OpenApi.Spec.Basic

namespace OpenApi

/-! ## §1. Chains. -/

/-- The names of the models being expanded, outermost first. -/
abbrev Chain := List String

/-- The error of a chain that comes back to `name`. -/
def Chain.cycleError (chain : Chain) (name : String) : Error :=
  .ofViolation (.cyclicInheritance (chain ++ [name]))

/-- The chain with one more name, unless that closes a cycle. -/
def Chain.enter (chain : Chain) (name : String) : Except Error Chain :=
  if chain.contains name then .error (chain.cycleError name) else .ok (chain ++ [name])

/-- The error of an allOf model that extends a model without properties. -/
def superError (name : String) (super : Model) : Error :=
  .ofViolation (.superWithoutProperties name super.name super.kind)

/-- The error of a walk over models that goes deeper than its limit, which is set so that none does. -/
def depthError : Error := .ofViolation (.other "models are nested deeper than their number")

/-- The error of a property that a model lacks. -/
def missingProperty (property model : String) : Error := ⟨.missingProperty property model, none⟩

namespace Spec

/-- A bound on the length of a chain. -/
def chainBound (s : Spec) : Nat := s.count + 1

/-! ## §2. Finding one property. -/

/-- What `look` finds in the first super model that has it. -/
def firstInSupers (s : Spec) (look : Model → Except Error (Option Property)) :
    List SchemaRef → Except Error (Option Property)
  | [] => .ok none
  | r :: rest => do
    let super ← s.getModel r
    match ← look super with
    | some p => pure (some p)
    | none => firstInSupers s look rest

/-- Fails for a super model without properties, and otherwise looks into it. -/
def lookChecked (name : String) (look : Model → Except Error (Option Property)) (super : Model) :
    Except Error (Option Property) :=
  if super.isObject then look super else .error (superError name super)

/-- Finds a property of a model while the models of a chain are being expanded: inline properties come
before those of super models. -/
def findProperty (s : Spec) (property : String) : (depth : Nat) → Chain → Model →
    Except Error (Option Property)
  | _, _, .generic m => .ok (m.property? property)
  | depth, chain, .allOf m => do
    let chain ← chain.enter m.name
    match m.inlineProperty? property, depth with
    | some p, _ => pure (some p)
    | none, 0 => .error depthError
    | none, depth + 1 =>
      s.firstInSupers (lookChecked m.name (findProperty s property depth chain)) m.supers
  | _, _, _ => .ok none

/-- The property of a model with a name, inherited ones included. -/
def getProperty (s : Spec) (m : Model) (property : String) : Except Error (Option Property) :=
  s.findProperty property s.chainBound [] m

/-- The property of a model with a name, which it must have. -/
def property (s : Spec) (m : Model) (name : String) : Except Error Property := do
  match ← s.getProperty m name with
  | some p => pure p
  | none => throw (missingProperty name m.name)

/-! ## §3. All properties. -/

/-- The models that an allOf model extends. -/
def superModels (s : Spec) (m : AllOfModel) : Except Error (List Model) :=
  m.supers.mapM s.getModel

/-- The properties that the model requires without declaring them inline: inherited, and required. -/
def requiredInherited (s : Spec) (depth : Nat) (chain : Chain) (m : AllOfModel) :
    List String → Except Error (List Property)
  | [] => .ok []
  | property :: rest =>
    if (m.inlineProperty? property).isSome then requiredInherited s depth chain m rest
    else do
      match ← s.firstInSupers (s.findProperty property depth chain) m.supers with
      | none => .error (missingProperty property m.name)
      | some p =>
        let more ← requiredInherited s depth chain m rest
        pure (p.withRequired true :: more)

/-- The own properties of a model that ends a chain. -/
def ownPropertiesIn (s : Spec) (depth : Nat) (chain : Chain) (m : AllOfModel) :
    Except Error (List Property) := do
  let inherited ← s.requiredInherited depth chain m m.required
  pure (inherited ++ m.inlineSupers.flatten)

/-- The own properties of an allOf model: those it inherits and requires, then the inline ones. -/
def ownProperties (s : Spec) (m : AllOfModel) : Except Error (List Property) :=
  s.ownPropertiesIn s.chainBound [m.name] m

/-- Puts the properties of a super model of `name` into others; `collect` does so for allOf models. -/
def collectSuper (collect : AllOfModel → List Property → Except Error (List Property)) (name : String)
    (into : List Property) : Model → Except Error (List Property)
  | .generic g => .ok (Keyed.putAll Property.name into g.properties)
  | .allOf a => collect a into
  | super => .error (superError name super)

/-- Puts all properties of an allOf model into others while the models of a chain are being expanded. -/
def collectAllOf (s : Spec) : (depth : Nat) → Chain → AllOfModel → List Property →
    Except Error (List Property)
  | depth, chain, m, into => do
    let chain ← chain.enter m.name
    match depth with
    | 0 => .error depthError
    | depth + 1 => do
      -- a reference that names nothing fails before any super model is expanded
      let supers ← s.superModels m
      let into ← supers.foldlM (collectSuper (collectAllOf s depth chain) m.name) into
      let own ← s.ownPropertiesIn depth chain m
      pure (Keyed.putAll Property.name into own)

/-- All properties of a model, inherited ones included. Only generic and allOf models have any. -/
def allProperties (s : Spec) : Model → Except Error (List Property)
  | .generic m => .ok m.properties
  | .allOf m => s.collectAllOf s.chainBound [] m []
  | _ => .ok []

/-- Is no property of the model required? -/
def requiresNothing (s : Spec) (m : Model) : Except Error Bool := do
  let properties ← s.allProperties m
  pure (properties.all fun p => !p.required)

/-- Fails if the properties of an allOf model cannot be put together. -/
def checkCompositions (s : Spec) : Except Error Unit :=
  s.arena.forM fun m =>
    match m with
    | .allOf _ => (s.allProperties m).map fun _ => ()
    | _ => .ok ()

end Spec

end OpenApi
