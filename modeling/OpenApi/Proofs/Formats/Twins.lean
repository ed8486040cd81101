/-
  OpenApi.Proofs.Formats.Twins — mappings in two texts of one tree.

  Mappings at the same place of documents that are twins have one node, so readings of them end alike, with errors that
  differ in lines and spans alone (`Pairing.twins`). A lookup that finds no value tells by its error why, so what both
  lookups found is the same as well (`Lookup.Pair.outcome`).
-/
import OpenApi.Proofs.Formats.Tree
import OpenApi.Proofs.Pairs.Lookups

namespace OpenApi

variable {α β γ δ : Type}

/-! ## §1. Equal nodes. -/

/-- Nodes and marks belong together if they are equal, and errors if they are alike. -/
def Pairing.twins : Pairing where
  nodes _ n n' := n' = n
  marks u u' := u' = u
  errors := Error.Alike
  kind h := congrArg Node.kind h
  scalarText h := congrArg Node.scalarText h
  boolean? h := congrArg Node.boolean? h
  json h := congrArg Node.json h
  items h := by
    rw [h]
    exact List.forall₂_refl _
  get? {r n n' key} h _ := by
    rw [h]
    cases n.get? key with
    | none => exact .inr ⟨nofun, nofun⟩
    | some c => exact .inl ⟨c, c, rfl, rfl, rfl⟩
  there h _ := .inl (by rw [h])
  decided h _ := by rw [h]
  listed h _ := congrArg Node.keys h
  isEmpty h := by rw [h]
  inert h := by rw [h]
  methods h := by rw [h]
  unmarked := rfl
  markRead path h := congrArg (Usage.markRead · path) h
  markSealed path h := congrArg (Usage.markSealed · path) h
  others {m m' u u'} key hnode hpath hmarks := by
    have hchild : m'.child = m.child := by
      unfold Mapping.child
      rw [hpath]
    unfold Mapping.passedOver Mapping.keys Mapping.containsKey
    rw [hnode, hchild, hmarks]
  alike h := h
  missing path key hnode hfile := by
    rw [hnode]
    exact Source.missingField_alike hfile path key _
  errorClass := Error.Alike.sameClass

theorem Document.Twin.documents {d d' : Document} (h : d.Twin d') (r : Role) : Pairing.twins.Documents r d d' :=
  ⟨h.filename, h.root⟩

/-- Mappings at the same place of twins. All keys in them count, and so does everything below. -/
abbrev Mapping.Twin (m m' : Mapping) : Prop := Pairing.twins.Pair (.table .exact) m m'

/-- Sequences at the same place of twins. -/
abbrev Sequence.Twin (s s' : Sequence) : Prop := Pairing.twins.Rows .exact s s'

/-- The role makes no difference. -/
theorem Pairing.Pair.twin {r : Role} {m m' : Mapping} (h : Pairing.twins.Pair r m m') : m.Twin m' :=
  ⟨h.filename, h.path, h.node, h.kind⟩

theorem Sequence.Twin.length {s s' : Sequence} (h : s.Twin s') : s'.length = s.length := by
  have hnode : s'.node = s.node := h.node
  unfold Sequence.length
  rw [hnode]

/-! ## §2. What lookups find. -/

/-- The error for a missing value that was looked up in a document tells the reason. -/
theorem Reason.eq_of_alike {reason reason' : Reason} {o o' : Option Origin} (ho : o.isSome = true)
    (ho' : o'.isSome = true) (h : (reason.error o).Alike (reason'.error o')) : reason' = reason := by
  obtain ⟨o, rfl⟩ := Option.isSome_iff_exists.1 ho
  obtain ⟨o', rfl⟩ := Option.isSome_iff_exists.1 ho'
  cases reason with
  | absent keys =>
    cases reason' with
    | absent keys' => exact congrArg Reason.absent (Cause.missingField.inj h).2.1.symm
    | rejected message' => exact absurd h nofun
  | rejected message =>
    cases reason' with
    | absent keys' => exact absurd h nofun
    | rejected message' => exact congrArg Reason.rejected (Cause.invalidValue.inj h).1.symm

namespace Lookup.Pair

/-- Both lookups found the same value, or none for the same reason. -/
theorem outcome {l l' : Lookup α} (h : Lookup.Pair Error.Alike Eq l l') : l'.outcome = l.outcome := by
  obtain ⟨hrequired, horigin, horigin'⟩ := h
  unfold Lookup.required at hrequired
  revert hrequired
  cases l.outcome with
  | present a =>
    cases l'.outcome with
    | present b =>
      rintro ⟨rfl⟩
      rfl
    | missing reason' => exact nofun
  | missing reason =>
    cases l'.outcome with
    | present b => exact nofun
    | missing reason' =>
      intro hmissing
      cases hmissing with
      | error halike => rw [Reason.eq_of_alike horigin horigin' halike]

theorem map {E : Error → Error → Prop} {R : α → β → Prop} {S : γ → δ → Prop} {f : α → γ} {f' : β → δ} {l : Lookup α}
    {l' : Lookup β} (h : Lookup.Pair E R l l') (hf : ∀ a b, R a b → S (f a) (f' b)) :
    Lookup.Pair E S (l.map f) (l'.map f') := by
  have hrequired : ∀ {α γ : Type} (l : Lookup α) (f : α → γ), (l.map f).required = l.required.map f := by
    intro α γ l f
    unfold Lookup.required Lookup.map
    cases l.outcome with
    | present a => rfl
    | missing reason => rfl
  have horigin : ∀ {α γ : Type} (l : Lookup α) (f : α → γ), (l.map f).origin = l.origin := by
    intro α γ l f
    unfold Lookup.map
    cases l.outcome with
    | present a => rfl
    | missing reason => rfl
  refine ⟨?_, ?_, ?_⟩
  · rw [hrequired, hrequired]
    exact h.required.map hf
  · rw [horigin]
    exact h.origin
  · rw [horigin]
    exact h.origin'

end Lookup.Pair

end OpenApi
