/-
  OpenApi.Proofs.Build.Found — what lookups find in the tree of a document.

  What a step of a build gives is told by the node that it looks at: a lookup gives what reading the value under the
  key gives, the entries of a mapping are the members of its node, and the mappings of a sequence are its items. All
  of them are in the document that was looked at.
-/
import OpenApi.Proofs.Build.Results
import OpenApi.Proofs.Closure.Written

namespace OpenApi

/-! ## §1. Mappings and sequences. -/

/-- A node that is read as a mapping stands in the mapping. -/
theorem Mapping.of_ofNode {d : Document} {n : Node} {path : Path} {m : Mapping}
    (h : Mapping.ofNode d n path = .ok m) : m.node = n ∧ m.document = d := by
  obtain ⟨-, rfl⟩ := Mapping.ofNode_eq_ok.1 h
  exact ⟨rfl, rfl⟩

theorem Sequence.of_ofNode {d : Document} {n : Node} {path : Path} {c : Sequence}
    (h : Sequence.ofNode d n path = .ok c) : c.node = n ∧ c.document = d := by
  obtain ⟨-, rfl⟩ := Sequence.ofNode_eq_ok.1 h
  exact ⟨rfl, rfl⟩

theorem Sequence.nodes_itemsFrom (path : Path) (items : List Node) :
    ∀ index, (itemsFrom path index items).map Prod.snd = items := by
  induction items with
  | nil => exact fun _ => rfl
  | cons n rest ih => exact fun index => congrArg (n :: ·) (ih (index + 1))

/-- The mappings of a sequence are its items. -/
theorem Sequence.of_mappings {c : Sequence} {ms : List Mapping} (h : c.mappings = .ok ms) :
    ms.map (fun m => m.node) = c.node.items ∧ ∀ m ∈ ms, m.document = c.document := by
  unfold Sequence.mappings at h
  rw [Outcome.mapM_eq_ok] at h
  constructor
  · have hitems : c.items.map Prod.snd = c.node.items := nodes_itemsFrom c.path c.node.items 0
    have hnodes : List.Forall₂ Eq (ms.map fun m => m.node) (c.items.map Prod.snd) := by
      rw [List.forall₂_map_left_iff, List.forall₂_map_right_iff]
      exact List.Forall₂.flip (h.imp fun item m hm => (Mapping.of_ofNode hm).1)
    rw [← hitems]
    exact List.forall₂_eq_eq_eq ▸ hnodes
  · intro m hm
    obtain ⟨item, -, hread⟩ := Outcome.exists_left h hm
    exact (Mapping.of_ofNode hread).2

/-- The texts of a sequence are those of its items. -/
theorem Sequence.of_texts {c : Sequence} {texts : List String} (h : c.texts = .ok texts) :
    texts = c.node.items.filterMap Node.scalarText := by
  unfold Sequence.texts at h
  rw [Outcome.mapM_eq_ok] at h
  rw [← nodes_itemsFrom c.path c.node.items 0]
  change texts = (c.items.map Prod.snd).filterMap Node.scalarText
  generalize c.items = items at h
  induction h with
  | nil => rfl
  | @cons item text _ _ hfirst _ ih =>
    cases htext : item.2.scalarText with
    | none =>
      rw [htext] at hfirst
      exact absurd hfirst nofun
    | some t =>
      rw [htext] at hfirst
      rw [List.map_cons, List.filterMap_cons_some htext, ← ih, Except.ok.inj hfirst]

/-- The entries of a mapping are the members of its node. -/
theorem Node.members_of_holds {m : Mapping} {keys : List String} {entries : List (String × Mapping)}
    (h : List.Forall₂ m.Holds keys entries) :
    entries.map (fun e => (e.1, e.2.node)) = keys.filterMap fun key => (m.node.get? key).map fun c => (key, c) := by
  induction h with
  | nil => rfl
  | @cons key e _ _ he _ ih =>
    have hfirst : ((m.node.get? key).map fun c => (key, c)) = some (e.1, e.2.node) := by
      rw [he.found, he.name]
      rfl
    rw [List.map_cons, ih]
    exact (List.filterMap_cons_some (f := fun key => (m.node.get? key).map fun c => (key, c)) hfirst).symm

/-- What is read as a scalar is its text. -/
theorem Mapping.scalarText_of_scalarAt {m : Mapping} {key text : String} {n : Node}
    (h : m.scalarAt key n = .ok text) : n.scalarText = some text := by
  unfold scalarAt at h
  cases htext : n.scalarText with
  | none =>
    rw [htext] at h
    exact absurd h nofun
  | some t =>
    rw [htext] at h
    rw [Except.ok.inj h]

/-! ## §2. Steps that look. -/

namespace Building

variable {α : Type}

/-- A lookup gives what reading the value under the key gives, or nothing where there is no value. -/
theorem lookup_gives (m : Mapping) (key : String) (read : Node → Except Error α) :
    (liftM (m.lookup key read) : Building (Lookup α)).Gives fun l =>
      (m.node.value? key = none ∧ l.optional = none) ∨
        ∃ n a, m.node.value? key = some n ∧ read n = .ok a ∧ l.optional = some a := by
  intro session l after hrun
  rw [run_lookup] at hrun
  rcases Mapping.look_eq_ok.1 (Prod.mk.inj hrun).1 with ⟨hnull, rfl⟩ | ⟨n, a, hget, hkind, hread, rfl⟩
  · exact .inl ⟨Node.value?_eq_none.2 hnull, rfl⟩
  · exact .inr ⟨n, a, Node.value?_eq_some.2 ⟨hget, hkind⟩, hread, rfl⟩

/-- The entries of a mapping are the members of its node, in the same document. -/
theorem mappingEntries_gives (m : Mapping) :
    (liftM m.mappingEntries : Building (List (String × Mapping))).Gives fun entries =>
      entries.map (fun e => (e.1, e.2.node)) = m.node.members ∧ ∀ e ∈ entries, e.2.document = m.document := by
  intro session entries after hrun
  have hholds : List.Forall₂ m.Holds m.keys entries := (run_mappingEntries.1 hrun).1
  refine ⟨Node.members_of_holds hholds, fun e he => ?_⟩
  obtain ⟨key, -, hkey⟩ := Outcome.exists_left hholds he
  exact hkey.document

end Building

end OpenApi
