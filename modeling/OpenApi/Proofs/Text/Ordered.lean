/-
  OpenApi.Proofs.Text.Ordered — sets of texts in ascending order.

  Putting a text into an ascending list adds just that text, and the list still ascends.
-/
import Mathlib.Data.String.Basic
import Mathlib.Tactic.Tauto
import OpenApi.Text.Ordered

namespace OpenApi.Text

/-! ## §1. What is in the list. -/

theorem mem_insertOrdered {x text : String} {texts : List String} :
    x ∈ insertOrdered text texts ↔ x = text ∨ x ∈ texts := by
  induction texts with
  | nil => simp [insertOrdered]
  | cons t rest ih =>
    unfold insertOrdered
    by_cases hlt : text < t
    · simp [hlt]
    · by_cases heq : text = t
      · simp [heq]
      · simp only [hlt, heq, if_false, List.mem_cons, ih]
        tauto

theorem mem_ordered {x : String} {texts : List String} : x ∈ ordered texts ↔ x ∈ texts := by
  have hfold : ∀ sorted : List String,
      x ∈ texts.foldl (fun sorted text => insertOrdered text sorted) sorted ↔ x ∈ texts ∨ x ∈ sorted := by
    induction texts with
    | nil => simp
    | cons t rest ih =>
      intro sorted
      rw [List.foldl_cons, ih, mem_insertOrdered, List.mem_cons]
      tauto
  unfold ordered
  rw [hfold]
  simp

/-! ## §2. The order of the list. -/

theorem pairwise_insertOrdered {text : String} {texts : List String} (h : texts.Pairwise (· < ·)) :
    (insertOrdered text texts).Pairwise (· < ·) := by
  induction texts with
  | nil => simp [insertOrdered]
  | cons t rest ih =>
    obtain ⟨hfirst, hrest⟩ := List.pairwise_cons.1 h
    unfold insertOrdered
    split
    next hlt =>
      refine List.pairwise_cons.2 ⟨fun x hx => ?_, h⟩
      rcases List.mem_cons.1 hx with rfl | hx
      · exact hlt
      · exact lt_trans hlt (hfirst x hx)
    next hlt =>
      split
      next => exact h
      next heq =>
        -- the first text stays in front, below the new one as well as below the others
        refine List.pairwise_cons.2 ⟨fun x hx => ?_, ih hrest⟩
        rcases mem_insertOrdered.1 hx with rfl | hx
        · exact lt_of_le_of_ne (not_lt.1 hlt) (Ne.symm heq)
        · exact hfirst x hx

/-- The ordered texts ascend. -/
theorem pairwise_ordered (texts : List String) : (ordered texts).Pairwise (· < ·) := by
  unfold ordered
  have hfold : ∀ {sorted : List String}, sorted.Pairwise (· < ·) →
      (texts.foldl (fun sorted text => insertOrdered text sorted) sorted).Pairwise (· < ·) := by
    induction texts with
    | nil => exact fun h => h
    | cons t rest ih => exact fun h => ih (pairwise_insertOrdered h)
  exact hfold List.Pairwise.nil

theorem nodup_ordered (texts : List String) : (ordered texts).Nodup :=
  (pairwise_ordered texts).imp fun h => ne_of_lt h

end OpenApi.Text
