/-
  OpenApi.Proofs.Pairs.Pairing — steps that do the same on two documents.

  A `Pairing` says which nodes of two documents belong together when they are read in some role: they look the same to
  the readers of that role, but need not be equal. It also says which marks belong together, and which errors. Two steps
  match if they mirror each other on sessions with the same spec and with marks that belong together
  (`Pairing.Matches`).
-/
import OpenApi.Proofs.Build.Readings
import OpenApi.Proofs.Pairs.Mirrors
import OpenApi.Proofs.Pairs.Roles

namespace OpenApi

variable {α β : Type}

/-! ## §1. Pairings. -/

/-- What stands under a key in two mappings: nodes that belong together, or on both sides nothing but null. -/
def Beneath (R : Node → Node → Prop) (o o' : Option Node) : Prop :=
  (∃ n n', o = some n ∧ o' = some n' ∧ R n n') ∨
    (∀ n, o = some n → n.kind = .null) ∧ ∀ n, o' = some n → n.kind = .null

/-- Which nodes of two documents belong together in a role, which marks of their readings, and which errors. -/
structure Pairing where
  nodes : Role → Node → Node → Prop
  marks : Usage → Usage → Prop
  errors : Error → Error → Prop
  kind {r : Role} {n n' : Node} : nodes r n n' → n'.kind = n.kind
  scalarText {r : Role} {n n' : Node} : nodes r n n' → n'.scalarText = n.scalarText
  boolean? {r : Role} {n n' : Node} : nodes r n n' → n'.boolean? = n.boolean?
  json {n n' : Node} : nodes .exact n n' → n'.json = n.json
  items {r : Role} {n n' : Node} : nodes r n n' → List.Forall₂ (nodes r) n.items n'.items
  get? {r : Role} {n n' : Node} {key : String} :
    nodes r n n' → r.Finds key → Beneath (nodes (r.under key)) (n.get? key) (n'.get? key)
  /-- A key is there on both sides or on neither, or else marks do not matter. -/
  there {r : Role} {n n' : Node} {key : String} : nodes r n n' → r.Finds key →
    (n'.get? key).isSome = (n.get? key).isSome ∨ ∀ u u', marks u u'
  decided {r : Role} {n n' : Node} {key : String} :
    nodes r n n' → key ∈ r.deciding → (n'.get? key).isSome = (n.get? key).isSome
  listed {r : Role} {n n' : Node} : nodes r n n' → r.isListed = true → n'.keys = n.keys
  /-- Whether there are any values of a map is seen. -/
  isEmpty {n n' : Node} : nodes (.schema true) n n' → n'.keys.isEmpty = n.keys.isEmpty
  /-- Whether all keys of a member are inert is seen. -/
  inert {n n' : Node} : nodes .member n n' →
    n'.keys.all Build.inertKeys.contains = n.keys.all Build.inertKeys.contains
  /-- The keys of operations are seen. -/
  methods {n n' : Node} : nodes .pathItem n n' →
    (n'.keys.filter fun key => !Build.isItemKey key) = n.keys.filter fun key => !Build.isItemKey key
  unmarked : marks .none .none
  markRead {u u' : Usage} (path : Path) : marks u u' → marks (u.markRead path) (u'.markRead path)
  markSealed {u u' : Usage} (path : Path) : marks u u' → marks (u.markSealed path) (u'.markSealed path)
  /-- Passing over all components but one keeps marks together. -/
  others {m m' : Mapping} {u u' : Usage} (key : String) : nodes .components m.node m'.node → m'.path = m.path →
    marks u u' →
      marks (m.passedOver (m.keys.filter fun k => k != key) u) (m'.passedOver (m'.keys.filter fun k => k != key) u')
  alike {e e' : Error} : e.Alike e' → errors e e'
  /-- An error about a missing key lists the keys that are there. -/
  missing {r : Role} {n n' : Node} {s s' : Source} (path : Path) (key : String) : nodes r n n' →
    s'.filename = s.filename → errors (s.missingField path key n.keys) (s'.missingField path key n'.keys)
  errorClass {e e' : Error} : errors e e' → e'.errorClass = e.errorClass

namespace Pairing

variable {P : Pairing}

/-- The sessions have the same spec, and their marks belong together. -/
structure Sessions (P : Pairing) (s s' : Session) : Prop where
  spec : s'.spec = s.spec
  usage : P.marks s.usage s'.usage

theorem same (P : Pairing) (e : Error) : P.errors e e := P.alike (.refl e)

/-- From sessions that belong together, either both steps fail or both succeed with related results, and the sessions
belong together in the end. -/
abbrev Matches (P : Pairing) (R : α → β → Prop) (x : Building α) (x' : Building β) : Prop :=
  Mirrors P.errors P.Sessions R x x'

/-- From marks that belong together, either both readings fail or both succeed with related results, and the marks
belong together in the end. -/
abbrev Reads (P : Pairing) (R : α → β → Prop) (x : Reading α) (x' : Reading β) : Prop :=
  Mirrors P.errors P.marks R x x'

/-- Readings as steps of a build. -/
theorem Reads.lift {R : α → β → Prop} {x : Reading α} {x' : Reading β} (h : P.Reads R x x') :
    P.Matches R (liftM x) (liftM x') := by
  intro s s' hs
  obtain ⟨hresult, hmarks⟩ := h s.usage s'.usage hs.usage
  exact ⟨hresult, hs.spec, hmarks⟩

namespace Matches

/-! ## §2. Steps of a build. -/

theorem spec : P.Matches Eq Building.spec Building.spec := fun _ _ hs => ⟨.ok hs.spec.symm, hs⟩

/-- What is reported does not matter. -/
theorem report (e e' : Event) : P.Matches Eq (Building.report e) (Building.report e') :=
  fun _ _ hs => ⟨.ok rfl, hs.spec, hs.usage⟩

theorem update (f : Spec → Except Error Spec) : P.Matches Eq (Building.update f) (Building.update f) := by
  intro s s' hs
  cases hf : f s.spec with
  | ok spec =>
    have hf' : f s'.spec = .ok spec := by rw [hs.spec, hf]
    rw [Building.run_update hf, Building.run_update hf']
    exact ⟨.ok rfl, rfl, hs.usage⟩
  | error e =>
    have hf' : f s'.spec = .error e := by rw [hs.spec, hf]
    rw [Building.run_update_error hf, Building.run_update_error hf']
    exact ⟨.error (P.same e), hs⟩

theorem addReference (r : SchemaRef) : P.Matches Eq (Building.addReference r) (Building.addReference r) := by
  unfold Building.addReference
  refine spec.bind ?_
  rintro known _ rfl
  split
  · exact update _
  · exact (report _ _).bind fun _ _ _ => update _

end Matches

end Pairing

end OpenApi
