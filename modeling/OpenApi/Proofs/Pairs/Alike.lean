/-
  OpenApi.Proofs.Pairs.Alike — results of two runs, and errors about one place of two documents.

  An error about a place in a document tells the path to it, and the line and span of its key in the text. Errors about
  the same place in two texts are alike: only lines and spans may differ (`Error.Alike`). So they are of one class and
  point at the same paths (`Error.Alike.errorClass`, `Error.Alike.pointers`). Two runs end both with related results, or
  both with errors that belong together (`Both`).
-/
import OpenApi.Document.Mapping
import OpenApi.Proofs.Outcome

namespace OpenApi

/-! ## §1. Errors without their lines. -/

/-- The location without its line. -/
def Location.unlined (l : Location) : Location := { l with line := none }

namespace Cause

/-- The cause without the line of its location. -/
def unlined : Cause → Cause
  | .missingField key keys l => .missingField key keys l.unlined
  | .wrongKind expected found l => .wrongKind expected found l.unlined
  | .invalidVariant value expected l => .invalidVariant value expected l.unlined
  | .invalidValue message l => .invalidValue message (l.map Location.unlined)
  | .invalidReference reference l => .invalidReference reference (l.map Location.unlined)
  | .unsupported what l => .unsupported what l.unlined
  | cause => cause

/-- The pointers to the places in a document that a cause is about. -/
def pointers : Cause → List String
  | .missingField _ _ l | .wrongKind _ _ l | .invalidVariant _ _ l | .unsupported _ l => [l.pointer]
  | .invalidValue _ l | .invalidReference _ l => l.toList.map Location.pointer
  | .unusedKeys _ pointers => pointers
  | _ => []

theorem errorClass_unlined (c : Cause) : c.unlined.errorClass = c.errorClass := by
  cases c <;> rfl

theorem pointers_unlined (c : Cause) : c.unlined.pointers = c.pointers := by
  cases c with
  | invalidValue message l =>
    cases l with
    | none => rfl
    | some l => rfl
  | invalidReference reference l =>
    cases l with
    | none => rfl
    | some l => rfl
  | _ => rfl

end Cause

/-- The pointers to the places in a document that an error is about. -/
def Error.pointers (e : Error) : List String := e.cause.pointers

/-- The errors tell the same but for lines and spans in the text. -/
def Error.Alike (e e' : Error) : Prop := e.cause.unlined = e'.cause.unlined

namespace Error.Alike

variable {e e' : Error}

theorem refl (e : Error) : e.Alike e := rfl

theorem errorClass (h : e.Alike e') : e.errorClass = e'.errorClass := by
  unfold Error.errorClass
  rw [← Cause.errorClass_unlined, ← Cause.errorClass_unlined e'.cause, h]

theorem sameClass (h : e.Alike e') : e'.errorClass = e.errorClass := h.errorClass.symm

theorem pointers (h : e.Alike e') : e.pointers = e'.pointers := by
  unfold Error.pointers
  rw [← Cause.pointers_unlined, ← Cause.pointers_unlined e'.cause, h]

end Error.Alike

/-! ## §2. Errors that texts make. -/

namespace Source

variable {s s' : Source}

theorem unlined_location (h : s'.filename = s.filename) (path : Path) :
    (s.location path).unlined = (s'.location path).unlined := by
  unfold location Location.ofPath Location.unlined
  rw [h]

/-- Errors that one cause makes of the same place. -/
theorem errorAt_alike (h : s'.filename = s.filename) {cause : Location → Cause}
    (hcause : ∀ l, (cause l).unlined = (cause l.unlined).unlined) (path : Path) :
    (s.errorAt path cause).Alike (s'.errorAt path cause) := by
  unfold Error.Alike errorAt
  dsimp only
  rw [hcause, hcause (s'.location path), unlined_location h]

theorem missingField_alike (h : s'.filename = s.filename) (path : Path) (key : String) (keys : List String) :
    (s.missingField path key keys).Alike (s'.missingField path key keys) :=
  errorAt_alike h (fun _ => rfl) path

/-- An error about a missing key is of one class, whatever other keys are there. -/
theorem errorClass_missingField {n n' : Node} (path : Path) (key : String) :
    (s'.missingField path key n'.keys).errorClass = (s.missingField path key n.keys).errorClass := rfl

theorem wrongKind_alike (h : s'.filename = s.filename) (path : Path) (expected found : String) :
    (s.wrongKind path expected found).Alike (s'.wrongKind path expected found) :=
  errorAt_alike h (fun _ => rfl) path

theorem invalidVariant_alike (h : s'.filename = s.filename) (path : Path) (value : String)
    (expected : List String) : (s.invalidVariant path value expected).Alike (s'.invalidVariant path value expected) :=
  errorAt_alike h (fun _ => rfl) path

theorem invalidValue_alike (h : s'.filename = s.filename) (path : Path) (message : String) :
    (s.invalidValue path message).Alike (s'.invalidValue path message) :=
  errorAt_alike h (fun _ => rfl) path

theorem unsupported_alike (h : s'.filename = s.filename) (path : Path) (what : String) :
    (s.unsupported path what).Alike (s'.unsupported path what) :=
  errorAt_alike h (fun _ => rfl) path

theorem invalidReference_alike (h : s'.filename = s.filename) (path : Path) (reference : String) :
    (s.invalidReference path reference).Alike (s'.invalidReference path reference) :=
  errorAt_alike h (fun _ => rfl) path

theorem unusedKeys_alike (h : s'.filename = s.filename) (paths : List Path) :
    (s.unusedKeys paths).Alike (s'.unusedKeys paths) := by
  unfold Error.Alike unusedKeys
  rw [h]

end Source

namespace Mapping

variable {m m' : Mapping}

theorem unsupported_alike (hfile : m'.filename = m.filename) (hpath : m'.path = m.path) (what : String) :
    (m.unsupported what).Alike (m'.unsupported what) := by
  unfold unsupported
  rw [hpath]
  exact Source.unsupported_alike hfile _ _

theorem unsupportedAt_alike (hfile : m'.filename = m.filename) (hpath : m'.path = m.path) (key what : String) :
    (m.unsupportedAt key what).Alike (m'.unsupportedAt key what) := by
  unfold unsupportedAt child
  rw [hpath]
  exact Source.unsupported_alike hfile _ _

theorem invalidReferenceAt_alike (hfile : m'.filename = m.filename) (hpath : m'.path = m.path)
    (key reference : String) : (m.invalidReferenceAt key reference).Alike (m'.invalidReferenceAt key reference) := by
  unfold invalidReferenceAt child
  rw [hpath]
  exact Source.invalidReference_alike hfile _ _

theorem invalidValueAt_alike (hfile : m'.filename = m.filename) (hpath : m'.path = m.path) (key message : String) :
    (m.invalidValueAt key message).Alike (m'.invalidValueAt key message) := by
  unfold invalidValueAt child
  rw [hpath]
  exact Source.invalidValue_alike hfile _ _

end Mapping

/-! ## §3. Results. -/

/-- Both results are there and related, or both are errors that belong together. -/
inductive Both {α β : Type} (E : Error → Error → Prop) (R : α → β → Prop) : Except Error α → Except Error β → Prop
  | ok {a : α} {b : β} (h : R a b) : Both E R (.ok a) (.ok b)
  | error {e e' : Error} (h : E e e') : Both E R (.error e) (.error e')

namespace Both

variable {α β γ δ : Type} {E : Error → Error → Prop} {R : α → β → Prop} {S : γ → δ → Prop} {x : Except Error α}
  {x' : Except Error β}

theorem mono {R' : α → β → Prop} (h : Both E R x x') (hR : ∀ a b, R a b → R' a b) : Both E R' x x' := by
  cases h with
  | ok h => exact .ok (hR _ _ h)
  | error h => exact .error h

theorem refl (hE : ∀ e, E e e) (x : Except Error α) : Both E Eq x x := by
  cases x with
  | error e => exact .error (hE e)
  | ok a => exact .ok rfl

theorem bind {f : α → Except Error γ} {f' : β → Except Error δ} (h : Both E R x x')
    (hf : ∀ a b, R a b → Both E S (f a) (f' b)) : Both E S (x >>= f) (x' >>= f') := by
  cases h with
  | ok h => exact hf _ _ h
  | error h => exact .error h

theorem map {f : α → γ} {f' : β → δ} (h : Both E R x x') (hf : ∀ a b, R a b → S (f a) (f' b)) :
    Both E S (x.map f) (x'.map f') := by
  cases h with
  | ok h => exact .ok (hf _ _ h)
  | error h => exact .error h

/-- Results over two lists of related elements. -/
theorem mapM {Q : α → β → Prop} {f : α → Except Error γ} {f' : β → Except Error δ}
    (hf : ∀ a b, Q a b → Both E S (f a) (f' b)) {xs : List α} {ys : List β} (h : List.Forall₂ Q xs ys) :
    Both E (List.Forall₂ S) (xs.mapM f) (ys.mapM f') := by
  induction h with
  | nil => exact .ok .nil
  | cons hab _ ih =>
    rw [List.mapM_cons, List.mapM_cons]
    refine (hf _ _ hab).bind fun c d hcd => ?_
    exact ih.bind fun cs ds hcds => .ok (.cons hcd hcds)

theorem forM {Q : α → β → Prop} {f : α → Except Error Unit} {f' : β → Except Error Unit}
    (hf : ∀ a b, Q a b → Both E Eq (f a) (f' b)) {xs : List α} {ys : List β} (h : List.Forall₂ Q xs ys) :
    Both E Eq (xs.forM f) (ys.forM f') := by
  induction h with
  | nil => exact .ok rfl
  | cons hab _ ih => exact (hf _ _ hab).bind fun _ _ _ => ih

/-- Both results are values or both are none. -/
theorem optional {x : Except Error α} {x' : Except Error β} (h : Both E R x x') :
    Option.Rel R x.toOption x'.toOption := by
  cases h with
  | ok h => exact .some h
  | error h => exact .none

/-- Where both results are equal or errors, each value of the one is one of the other. -/
theorem ok_iff {x x' : Except Error α} (h : Both E Eq x x') (a : α) : x = .ok a ↔ x' = .ok a := by
  cases h with
  | ok h => rw [h]
  | error h =>
    constructor
    · intro he
      exact absurd he (by simp)
    · intro he
      exact absurd he (by simp)

end Both

end OpenApi
