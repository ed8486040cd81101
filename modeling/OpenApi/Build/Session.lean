/-
  OpenApi.Build.Session — the state of a build.

  While a document is read, a build holds the marks on its keys, the spec so far and what happened so far.
  A step may fail; what was marked and reported before stays.
-/
import OpenApi.Document.Mapping
import OpenApi.Event
import OpenApi.Spec.Basic

namespace OpenApi

/-- The state of a build. -/
structure Session where
  /-- The marks on the keys of the document that is being read. -/
  usage : Usage
  spec : Spec
  /-- What happened, oldest first. -/
  events : List Event

/-- Steps of a build. -/
abbrev Building := ExceptT Error (StateM Session)

namespace Building

/-- Reading the document as a step of the build. -/
def ofReading {α : Type} (r : Reading α) : Building α :=
  ExceptT.mk fun session =>
    let (result, usage) := r.run.run session.usage
    (result, { session with usage })

instance : MonadLift Reading Building := ⟨ofReading⟩

/-- The spec so far. -/
def spec : Building Spec := ExceptT.mk fun session => (.ok session.spec, session)

/-- Reports an event. -/
def report (e : Event) : Building Unit :=
  ExceptT.mk fun session => (.ok (), { session with events := session.events ++ [e] })

/-- Replaces the spec by what `f` makes of it, if it succeeds. -/
def update (f : Spec → Except Error Spec) : Building Unit :=
  ExceptT.mk fun session =>
    match f session.spec with
    | .ok spec => (.ok (), { session with spec })
    | .error e => (.error e, session)

/-- What `read` makes of a value, or the default where there is none. -/
def optionally {α β : Type} (read : α → Building β) (default : β) : Option α → Building β
  | some a => read a
  | none => pure default

/-- Records a reference; the first time is reported. -/
def addReference (r : SchemaRef) : Building Unit := do
  if (← spec).knowsReference r then pure ()
  else report (.registeredReference r.reference r.declaredIn)
  update fun spec => .ok (spec.addReference r)

end Building

end OpenApi
