/-
  OpenApi.Proofs.Extensions.Marks — marks and unused keys without extensions.

  Extensions are never reported, nor is what stands below them. So what is unused does not depend on the marks on them,
  and it is the same in the plain tree (`mem_unusedBelow_plain`). Only the components of a document that is merely
  referenced are marked key by key; the marks there may differ on extensions, but nowhere else.
-/
import OpenApi.Proofs.Extensions.Plain
import OpenApi.Proofs.Build.Readings

namespace OpenApi

/-! ## §1. Paths without extensions. -/

namespace Usage

/-- No extension is on the path. -/
def Named (path : Path) : Prop := ∀ key ∈ path, isExtension key = false

theorem named_nil : Named [] := fun _ h => absurd h List.not_mem_nil

theorem Named.append {path : Path} {key : String} (h : Named path) (hkey : isExtension key = false) :
    Named (path ++ [key]) := by
  intro k hk
  rcases List.mem_append.1 hk with hk | hk
  · exact h k hk
  · rw [List.mem_singleton.1 hk]
    exact hkey

theorem not_named {path : Path} {key : String} (hkey : isExtension key = true) : ¬Named (path ++ [key]) := by
  intro h
  have hnot := h key (List.mem_append_right _ List.mem_cons_self)
  rw [hkey] at hnot
  exact absurd hnot Bool.true_eq_false.mp

/-- The index of an item is no extension, since it is written in digits. -/
theorem isExtension_toString (n : Nat) : isExtension (toString n) = false := by
  have hdigits : (toString n).toList = Nat.toDigits 10 n := String.toList_ofList
  unfold isExtension
  rw [hdigits]
  cases hn : Nat.toDigits 10 n with
  | nil => rfl
  | cons c rest =>
    have hc : c.isDigit = true := Nat.isDigit_of_mem_toDigits (by decide) (by decide) (hn ▸ List.mem_cons_self)
    have hx : ('x' == c) = false := by
      rw [beq_eq_false_iff_ne]
      intro heq
      exact absurd (heq ▸ hc) (by decide)
    show ('x' == c && List.isPrefixOf ['-'] rest) = false
    rw [hx, Bool.false_and]

/-! ## §2. Marks that agree but on extensions. -/

/-- The same paths are marked, those with extensions apart. -/
structure Agree (u v : Usage) : Prop where
  read : ∀ p, Named p → (p ∈ u.read ↔ p ∈ v.read)
  sealed : ∀ p, Named p → (p ∈ u.sealed ↔ p ∈ v.sealed)

namespace Agree

variable {u v : Usage}

theorem refl (u : Usage) : u.Agree u := ⟨fun _ _ => .rfl, fun _ _ => .rfl⟩

theorem symm (h : u.Agree v) : v.Agree u := ⟨fun p hp => (h.read p hp).symm, fun p hp => (h.sealed p hp).symm⟩

theorem trans {w : Usage} (h : u.Agree v) (h' : v.Agree w) : u.Agree w :=
  ⟨fun p hp => (h.read p hp).trans (h'.read p hp), fun p hp => (h.sealed p hp).trans (h'.sealed p hp)⟩

theorem markRead (h : u.Agree v) (path : Path) : (u.markRead path).Agree (v.markRead path) where
  read p hp := by simp [Usage.markRead, h.read p hp]
  sealed := h.sealed

theorem markSealed (h : u.Agree v) (path : Path) : (u.markSealed path).Agree (v.markSealed path) where
  read p hp := by simp [Usage.markSealed, h.read p hp]
  sealed p hp := by simp [Usage.markSealed, h.sealed p hp]

/-- A mark on an extension more. -/
theorem markSealed_extension (h : u.Agree v) (path : Path) {key : String} (hkey : isExtension key = true) :
    (u.markSealed (path ++ [key])).Agree v where
  read p hp := by
    rw [← h.read p hp]
    simp only [Usage.markSealed, List.mem_cons, or_iff_right_iff_imp]
    intro heq
    exact absurd (heq ▸ hp) (not_named hkey)
  sealed p hp := by
    rw [← h.sealed p hp]
    simp only [Usage.markSealed, List.mem_cons, or_iff_right_iff_imp]
    intro heq
    exact absurd (heq ▸ hp) (not_named hkey)

end Agree

/-- Passing keys over marks the same, extensions apart, as passing those over that are no extensions. -/
theorem passedOver_agree (m m' : Mapping) (hpath : m'.path = m.path)
    (hkeys : ∀ key, isExtension key = false → m'.containsKey key = m.containsKey key) :
    ∀ (keys : List String) {u v : Usage}, u.Agree v →
      (m.passedOver keys u).Agree (m'.passedOver (keys.filter fun key => !isExtension key) v) := by
  intro keys
  induction keys with
  | nil => exact fun h => h
  | cons key keys ih =>
    intro u v h
    -- an extension is sealed on one side only, which no agreement on the plain paths can see
    cases hkey : isExtension key with
    | true =>
      rw [List.filter_cons_of_neg (by simp [hkey])]
      refine ih (u := if m.containsKey key then u.markSealed (m.child key) else u) ?_
      split
      next => exact h.markSealed_extension m.path hkey
      next => exact h
    | false =>
      rw [List.filter_cons_of_pos (by simp [hkey])]
      refine ih (u := if m.containsKey key then u.markSealed (m.child key) else u)
        (v := if m'.containsKey key then v.markSealed (m'.child key) else v) ?_
      have hchild : m'.child key = m.child key := by
        unfold Mapping.child
        rw [hpath]
      rw [hkeys key hkey, hchild]
      split
      next => exact h.markSealed _
      next => exact h

/-! ## §3. Unused keys of plain trees. -/

variable {u v : Usage} {p : Path}

/-- **A plain tree has the same unused keys,** also by marks that agree but on extensions. -/
theorem mem_unusedBelow_plain (h : u.Agree v) (n : Node) : ∀ {r : Role} {path : Path}, Named path →
    (p ∈ unusedBelow v path (n.plain r) ↔ p ∈ unusedBelow u path n) := by
  induction n using Node.induction with
  | sequence items ih =>
    intro r path hpath
    have hitems : ∀ index, p ∈ unusedItems v path index (Node.plainItems r items) ↔
        p ∈ unusedItems u path index items := by
      induction items with
      | nil => exact fun _ => by rw [Node.plainItems, unusedItems, unusedItems]
      | cons n rest ihrest =>
        intro index
        obtain ⟨hn, hrest⟩ := List.forall_mem_cons.1 ih
        rw [Node.plainItems, unusedItems, unusedItems, List.mem_append, List.mem_append,
          hn (hpath.append (isExtension_toString index)), ihrest hrest]
    rw [Node.plain, unusedBelow, unusedBelow]
    simp only [List.contains_iff_mem, h.sealed path hpath]
    split
    next => exact .rfl
    next => exact hitems 0
  | mapping entries ih =>
    intro r path hpath
    have hplain : (Node.mapping entries).plain r =
        .mapping (Node.plainEntries r (r.hides (Node.mapping entries).keys) entries) := by rw [Node.plain]
    rw [hplain, mem_unusedBelow_mapping, mem_unusedBelow_mapping, ← hplain]
    refine and_congr (not_congr (h.sealed path hpath).symm) (exists_congr fun key => ?_)
    rw [Node.keys_plain, List.mem_filter]
    -- extensions are not reported, and every other key is kept
    cases hkey : isExtension key with
    | true => simp
    | false =>
      have hvalue :
          (∃ n, ((Node.mapping entries).plain r).get? key = some n ∧ p ∈ unusedBelow v (path ++ [key]) n) ↔
            ∃ n, (Node.mapping entries).get? key = some n ∧ p ∈ unusedBelow u (path ++ [key]) n := by
        rw [Node.get?_plain_of_finds (.inr hkey)]
        cases hget : (Node.mapping entries).get? key with
        | none => simp
        | some n =>
          obtain ⟨e, he, rfl⟩ := Option.map_eq_some_iff.1 hget
          simpa using ih e (List.mem_of_find?_eq_some he) (hpath.append hkey)
      rw [hvalue, h.read _ (hpath.append hkey), Role.drops, hkey, Bool.and_false]
      simp
  | tagged tag n ih =>
    intro r path hpath
    exact ih hpath
  | _ => exact fun _ => .rfl

end Usage

end OpenApi
