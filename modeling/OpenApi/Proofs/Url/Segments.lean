/-
  OpenApi.Proofs.Url.Segments — the segments of paths.

  In a path number signs are encoded, and resolving segments makes none. So no segment of a path that was read holds
  one, if those in front of it hold none (`plain_segmentsAfter`).
-/
import OpenApi.Proofs.Url.Encoding
import OpenApi.Url.Parse

namespace OpenApi.Url

open Text

/-! ## §1. Segments. -/

/-- No segment holds a number sign. -/
def Plain (segments : List (List Char)) : Prop := ∀ s ∈ segments, '#' ∉ s

variable {segments front : List (List Char)} {s : List Char} {isFile : Bool}

theorem Plain.subset {fewer : List (List Char)} (h : Plain segments) (hsub : fewer ⊆ segments) : Plain fewer :=
  fun s hs => h s (hsub hs)

theorem Plain.nil : Plain [] := fun _ hs => absurd hs List.not_mem_nil

theorem Plain.concat (hfront : Plain front) (hs : '#' ∉ s) : Plain (front ++ [s]) :=
  List.forall_mem_append.2 ⟨hfront, List.forall_mem_singleton.2 hs⟩

theorem Plain.shortened (h : Plain front) : Plain (shortened front) := by
  unfold Url.shortened
  split
  next => exact h
  next => exact h.subset (List.dropLast_subset _)

theorem Plain.extended (hfront : Plain front) (hs : '#' ∉ s) : Plain (extended isFile front s) := by
  have hdrive : '#' ∉ normalDrive s := by
    cases s with
    | nil => exact List.not_mem_nil
    | cons letter rest =>
      have hletter : '#' ≠ letter := fun h => hs (h ▸ List.mem_cons_self)
      simp [normalDrive, hletter]
  unfold Url.extended
  split
  next => exact List.forall_mem_singleton.2 hdrive
  next => exact hfront.concat hs

/-- Resolving makes no number signs. -/
theorem Plain.resolve (hsegments : Plain segments) (hfront : Plain front) :
    Plain (resolve isFile front segments) := by
  have hempty : '#' ∉ ([] : List Char) := List.not_mem_nil
  induction segments generalizing front with
  | nil => exact hfront
  | cons s rest ih =>
    obtain ⟨hs, hrest⟩ := List.forall_mem_cons.1 hsegments
    -- the last segment is treated apart: a step up leaves an empty one behind
    cases rest with
    | nil =>
      unfold Url.resolve
      split
      next => exact hfront.shortened.concat hempty
      next =>
        split
        next => exact hfront.concat hempty
        next => exact hfront.extended hs
    | cons next rest =>
      unfold Url.resolve
      split
      next => exact ih hrest hfront.shortened
      next =>
        split
        next => exact ih hrest hfront
        next => exact ih hrest (hfront.extended hs)

/-! ## §2. Paths. -/

variable {scheme text : List Char}

theorem plain_segmentsAfter (h : Plain front) : Plain (segmentsAfter scheme front text) := by
  refine Plain.resolve (fun s hs => ?_) h
  obtain ⟨piece, -, rfl⟩ := List.mem_map.1 hs
  exact mark_not_mem_encoded (by decide) piece

theorem Plain.directory (h : Plain segments) : Plain (directory segments) := by
  unfold Url.directory
  split
  next =>
    split
    next => exact h
    next => exact .nil
  next => exact h.subset (List.dropLast_subset _)

end OpenApi.Url
