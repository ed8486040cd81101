/-
  OpenApi.Proofs.Text.Cut — cutting a text at a character.

  A text is cut in two exactly where the character stands, and the part on the side from which it is looked for
  does not hold it. Cut everywhere, it falls into parts without separators; parts that are joined again are told
  apart by cutting (`pieces_joinWith`).
-/
import Mathlib.Data.List.Basic
import OpenApi.Text.Cut

namespace OpenApi.Text

variable {c : Char} {s front rest : List Char}

/-! ## §1. The first occurrence. -/

theorem splitFirst_append (h : c ∉ front) (rest : List Char) :
    splitFirst c (front ++ c :: rest) = some (front, rest) := by
  induction front with
  | nil => simp [splitFirst]
  | cons d front ih =>
    obtain ⟨hd, hfront⟩ := not_or.1 (List.mem_cons.not.1 h)
    simp [splitFirst, Ne.symm hd, ih hfront]

theorem splitFirst_eq_some (h : splitFirst c s = some (front, rest)) :
    s = front ++ c :: rest ∧ c ∉ front := by
  induction s generalizing front with
  | nil => exact absurd h (by simp [splitFirst])
  | cons d s ih =>
    unfold splitFirst at h
    by_cases hd : d = c
    · rw [if_pos hd] at h
      obtain ⟨rfl, rfl⟩ := Prod.mk.inj (Option.some.inj h)
      exact ⟨by rw [hd]; rfl, List.not_mem_nil⟩
    · rw [if_neg hd] at h
      obtain ⟨⟨before, after⟩, hcut, hpair⟩ := Option.map_eq_some_iff.1 h
      obtain ⟨rfl, rfl⟩ := Prod.mk.inj hpair
      obtain ⟨rfl, hbefore⟩ := ih hcut
      exact ⟨rfl, List.not_mem_cons_of_ne_of_not_mem (Ne.symm hd) hbefore⟩

theorem splitFirst_eq_none (h : splitFirst c s = none) : c ∉ s := by
  intro hmem
  obtain ⟨front, rest, rfl, hfront⟩ := List.eq_append_cons_of_mem hmem
  rw [splitFirst_append hfront] at h
  exact absurd h nofun

/-! ## §2. The last occurrence. -/

theorem splitLast_eq_none : splitLast c s = none ↔ c ∉ s := by
  induction s with
  | nil => simp [splitLast]
  | cons d s ih =>
    unfold splitLast
    cases hs : splitLast c s with
    | some p =>
      have hmem : c ∈ s := by
        by_contra hnot
        rw [ih.2 hnot] at hs
        exact absurd hs nofun
      simp [hmem]
    | none =>
      have hnot : c ∉ s := ih.1 hs
      by_cases hd : d = c
      · simp [hd]
      · simp [hd, hnot, Ne.symm hd]

theorem splitLast_append (front : List Char) (h : c ∉ rest) :
    splitLast c (front ++ c :: rest) = some (front, rest) := by
  induction front with
  | nil => simp [splitLast, splitLast_eq_none.2 h]
  | cons d front ih => simp [splitLast, ih]

theorem splitLast_eq_some (h : splitLast c s = some (front, rest)) :
    s = front ++ c :: rest ∧ c ∉ rest := by
  induction s generalizing front with
  | nil => exact absurd h (by simp [splitLast])
  | cons d s ih =>
    unfold splitLast at h
    -- a cut further on wins; without one the rest holds no more of the character
    cases hs : splitLast c s with
    | some p =>
      rw [hs] at h
      obtain ⟨rfl, rfl⟩ := Prod.mk.inj (Option.some.inj h)
      obtain ⟨rfl, hrest⟩ := ih hs
      exact ⟨rfl, hrest⟩
    | none =>
      rw [hs] at h
      dsimp only at h
      split at h
      next hd =>
        obtain ⟨rfl, rfl⟩ := Prod.mk.inj (Option.some.inj h)
        exact ⟨by rw [hd]; rfl, splitLast_eq_none.1 hs⟩
      next => exact absurd h nofun

/-! ## §3. The start of a text. -/

theorem afterHead_append (head s : List Char) : afterHead head (head ++ s) = some s := by
  induction head with
  | nil => cases s <;> rfl
  | cons h head ih =>
    unfold afterHead
    exact (if_pos rfl).trans ih

theorem afterHead_eq_some {head : List Char} : ∀ {s : List Char}, afterHead head s = some rest → s = head ++ rest := by
  induction head with
  | nil =>
    intro s h
    cases s with
    | nil => exact Option.some.inj h
    | cons d s => exact Option.some.inj h
  | cons h head ih =>
    intro s hs
    cases s with
    | nil => exact absurd hs nofun
    | cons d s =>
      unfold afterHead at hs
      split at hs
      next heq => rw [heq, ih hs, List.cons_append]
      next => exact absurd hs nofun

/-! ## §4. All parts. -/

variable {isSeparator : Char → Bool} {parts : List (List Char)}

theorem pieces_ne_nil (isSeparator : Char → Bool) (s : List Char) : pieces isSeparator s ≠ [] := by
  cases s with
  | nil => exact List.cons_ne_nil _ _
  | cons d s =>
    unfold pieces
    split
    next => exact List.cons_ne_nil _ _
    next =>
      split
      next => exact List.cons_ne_nil _ _
      next => exact List.cons_ne_nil _ _

theorem pieces_cons_of_eq (hc : isSeparator c = true) (s : List Char) :
    pieces isSeparator (c :: s) = [] :: pieces isSeparator s := by
  rw [pieces, if_pos hc]

/-- A text without separators is one part. -/
theorem pieces_eq_singleton (h : ∀ d ∈ s, isSeparator d = false) : pieces isSeparator s = [s] := by
  induction s with
  | nil => rfl
  | cons d s ih =>
    obtain ⟨hd, hs⟩ := List.forall_mem_cons.1 h
    rw [pieces, hd, ih hs]
    rfl

/-- The parts before a separator, and those after it. -/
theorem pieces_append (hc : isSeparator c = true) (front rest : List Char) :
    pieces isSeparator (front ++ c :: rest) = pieces isSeparator front ++ pieces isSeparator rest := by
  induction front with
  | nil => exact pieces_cons_of_eq hc rest
  | cons d front ih =>
    rw [List.cons_append, pieces, pieces, ih]
    by_cases hd : isSeparator d = true
    · rw [if_pos hd, if_pos hd, List.cons_append]
    · rw [if_neg hd, if_neg hd]
      cases hfront : pieces isSeparator front with
      | nil => exact absurd hfront (pieces_ne_nil _ _)
      | cons p ps => rfl

/-- Parts that are joined are told apart again, if none holds a separator. -/
theorem pieces_joinWith (hc : isSeparator c = true) (hne : parts ≠ [])
    (h : ∀ p ∈ parts, ∀ d ∈ p, isSeparator d = false) : pieces isSeparator (joinWith [c] parts) = parts := by
  induction parts with
  | nil => exact absurd rfl hne
  | cons p parts ih =>
    obtain ⟨hp, hparts⟩ := List.forall_mem_cons.1 h
    cases parts with
    | nil => exact pieces_eq_singleton hp
    | cons q parts =>
      have hjoin : joinWith [c] (p :: q :: parts) = p ++ c :: joinWith [c] (q :: parts) := by simp [joinWith]
      rw [hjoin, pieces_append hc, pieces_eq_singleton hp, ih (List.cons_ne_nil _ _) hparts]
      rfl

/-- The parts of a text that are joined again make the text. -/
theorem joinWith_pieces (c : Char) (s : List Char) : joinWith [c] (pieces (fun d => d = c) s) = s := by
  induction s with
  | nil => rfl
  | cons d s ih =>
    cases hs : pieces (fun d => decide (d = c)) s with
    | nil => exact absurd hs (pieces_ne_nil _ _)
    | cons p ps =>
      rw [hs] at ih
      by_cases hd : d = c
      · rw [pieces_cons_of_eq (by simp [hd]), hs, ← hd]
        have hjoin : joinWith [d] ([] :: p :: ps) = d :: joinWith [d] (p :: ps) := rfl
        rw [hjoin, hd, ih]
      · rw [pieces, if_neg (by simp [hd]), hs]
        cases ps with
        | nil => exact congrArg (d :: ·) ih
        | cons q qs => exact congrArg (d :: ·) ih

/-- The characters of a part are those of the text, separators apart. -/
theorem of_mem_pieces {d : Char} : ∀ {p : List Char}, p ∈ pieces isSeparator s → d ∈ p →
    d ∈ s ∧ isSeparator d = false := by
  induction s with
  | nil =>
    intro p hp hd
    rw [List.mem_singleton.1 hp] at hd
    exact absurd hd List.not_mem_nil
  | cons e s ih =>
    intro p hp hd
    unfold pieces at hp
    by_cases he : isSeparator e = true
    · rw [if_pos he] at hp
      rcases List.mem_cons.1 hp with rfl | hp
      · exact absurd hd List.not_mem_nil
      · exact (ih hp hd).imp_left (List.mem_cons_of_mem e)
    · rw [if_neg he] at hp
      cases hs : pieces isSeparator s with
      | nil => exact absurd hs (pieces_ne_nil _ _)
      | cons q qs =>
        rw [hs] at hp ih
        rcases List.mem_cons.1 hp with rfl | hp
        · -- the first part has one character more
          rcases List.mem_cons.1 hd with rfl | hd
          · exact ⟨List.mem_cons_self, by simpa using he⟩
          · exact (ih List.mem_cons_self hd).imp_left (List.mem_cons_of_mem e)
        · exact (ih (List.mem_cons_of_mem q hp) hd).imp_left (List.mem_cons_of_mem e)

/-- Only the characters of the text have to be told from separators. -/
theorem pieces_congr {isOther : Char → Bool} (h : ∀ d ∈ s, isSeparator d = isOther d) :
    pieces isSeparator s = pieces isOther s := by
  induction s with
  | nil => rfl
  | cons d s ih =>
    obtain ⟨hd, hs⟩ := List.forall_mem_cons.1 h
    rw [pieces, pieces, hd, ih hs]

/-- Joined parts hold a character just if it joins two of them or one of them holds it. -/
theorem mem_joinWith {d : Char} (h : d ∈ joinWith [c] parts) : d = c ∨ ∃ p ∈ parts, d ∈ p := by
  induction parts with
  | nil => exact absurd h List.not_mem_nil
  | cons p parts ih =>
    cases parts with
    | nil => exact .inr ⟨p, List.mem_cons_self, h⟩
    | cons q parts =>
      have hjoin : joinWith [c] (p :: q :: parts) = p ++ c :: joinWith [c] (q :: parts) := by simp [joinWith]
      rw [hjoin] at h
      rcases List.mem_append.1 h with hp | hrest
      · exact .inr ⟨p, List.mem_cons_self, hp⟩
      · rcases List.mem_cons.1 hrest with hd | hrest
        · exact .inl hd
        · exact (ih hrest).imp_right fun ⟨x, hx, hd⟩ => ⟨x, List.mem_cons_of_mem p hx, hd⟩

end OpenApi.Text
