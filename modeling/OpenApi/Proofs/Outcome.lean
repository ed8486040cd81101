/-
  OpenApi.Proofs.Outcome — computations that may fail, and lists of them.

  Where a sequence of steps succeeds, every step did; where it fails, one step failed with that error.
-/
import Mathlib.Data.List.Forall2

namespace OpenApi.Outcome

variable {ε α β : Type}

/-! ## §1. Two steps. -/

theorem bind_eq_ok {x : Except ε α} {f : α → Except ε β} {b : β} :
    x >>= f = .ok b ↔ ∃ a, x = .ok a ∧ f a = .ok b := by
  cases x with
  | error e => simp [bind, Except.bind]
  | ok a => simp [bind, Except.bind]

theorem bind_eq_error {x : Except ε α} {f : α → Except ε β} {e : ε} :
    x >>= f = .error e ↔ x = .error e ∨ ∃ a, x = .ok a ∧ f a = .error e := by
  cases x with
  | error e => simp [bind, Except.bind]
  | ok a => simp [bind, Except.bind]

theorem map_eq_ok {x : Except ε α} {f : α → β} {b : β} : x.map f = .ok b ↔ ∃ a, x = .ok a ∧ f a = b := by
  cases x with
  | error e => simp [Except.map]
  | ok a => simp [Except.map]

/-- A computation that does not fail has a result. -/
theorem exists_ok {x : Except ε α} (h : ∀ e, x ≠ .error e) : ∃ a, x = .ok a := by
  cases x with
  | error e => exact absurd rfl (h e)
  | ok a => exact ⟨a, rfl⟩

theorem isOk_iff {x : Except ε α} : x.isOk = true ↔ ∃ a, x = .ok a := by
  cases x with
  | error e => simp [Except.isOk, Except.toBool]
  | ok a => simp [Except.isOk, Except.toBool]

/-- A result of which something is known is there. -/
theorem exists_of_map {x : Except ε α} {f : α → β} {b : β} (h : (x.map f).toOption = some b) :
    ∃ a, x = .ok a ∧ f a = b := by
  cases x with
  | error e => exact absurd h nofun
  | ok a => exact ⟨a, rfl, Option.some.inj h⟩

/-! ## §2. Steps over a list. -/

theorem mapM_eq_ok {f : α → Except ε β} {xs : List α} :
    ∀ {ys : List β}, xs.mapM f = .ok ys ↔ List.Forall₂ (fun x y => f x = .ok y) xs ys := by
  induction xs with
  | nil =>
    intro ys
    rw [List.mapM_nil, List.forall₂_nil_left_iff]
    exact ⟨fun h => (Except.ok.inj h).symm, fun h => h ▸ rfl⟩
  | cons x xs ih =>
    intro ys
    rw [List.mapM_cons, bind_eq_ok, List.forall₂_cons_left_iff]
    constructor
    · rintro ⟨y, hy, hrest⟩
      obtain ⟨zs, hzs, heq⟩ := bind_eq_ok.1 hrest
      exact ⟨y, zs, hy, ih.1 hzs, (Except.ok.inj heq).symm⟩
    · rintro ⟨y, zs, hy, hzs, rfl⟩
      exact ⟨y, hy, bind_eq_ok.2 ⟨zs, ih.2 hzs, rfl⟩⟩

/-- Each element on the left of two related lists has a partner on the right. -/
theorem exists_right {R : α → β → Prop} {xs : List α} {ys : List β} (h : List.Forall₂ R xs ys)
    {x : α} (hx : x ∈ xs) : ∃ y ∈ ys, R x y := by
  induction h with
  | nil => exact absurd hx List.not_mem_nil
  | cons hxy _ ih =>
    rcases List.mem_cons.1 hx with rfl | hx
    · exact ⟨_, List.mem_cons_self, hxy⟩
    · obtain ⟨y, hy, hr⟩ := ih hx
      exact ⟨y, List.mem_cons_of_mem _ hy, hr⟩

/-- Each element on the right of two related lists has a partner on the left. -/
theorem exists_left {R : α → β → Prop} {xs : List α} {ys : List β} (h : List.Forall₂ R xs ys)
    {y : β} (hy : y ∈ ys) : ∃ x ∈ xs, R x y :=
  exists_right (R := flip R) h.flip hy

theorem mapM_eq_error {f : α → Except ε β} {xs : List α} {e : ε} (h : xs.mapM f = .error e) :
    ∃ x ∈ xs, f x = .error e := by
  induction xs with
  | nil => exact absurd h (by simp [pure, Except.pure])
  | cons x xs ih =>
    rw [List.mapM_cons, bind_eq_error] at h
    obtain hx | ⟨y, -, hrest⟩ := h
    · exact ⟨x, List.mem_cons_self, hx⟩
    · obtain hxs | ⟨zs, -, hpure⟩ := bind_eq_error.1 hrest
      · obtain ⟨z, hz, hfail⟩ := ih hxs
        exact ⟨z, List.mem_cons_of_mem _ hz, hfail⟩
      · exact absurd hpure (by simp [pure, Except.pure])

theorem forM_eq_ok {f : α → Except ε Unit} {xs : List α} (h : xs.forM f = .ok ()) :
    ∀ x ∈ xs, f x = .ok () := by
  induction xs with
  | nil => exact fun x hx => absurd hx List.not_mem_nil
  | cons x xs ih =>
    obtain ⟨u, hx, hrest⟩ := bind_eq_ok.1 h
    intro y hy
    rcases List.mem_cons.1 hy with rfl | hy
    · exact hx
    · exact ih hrest y hy

theorem forM_eq_ok_iff {f : α → Except ε Unit} {xs : List α} :
    xs.forM f = .ok () ↔ ∀ x ∈ xs, f x = .ok () := by
  refine ⟨forM_eq_ok, fun h => ?_⟩
  induction xs with
  | nil => rfl
  | cons x xs ih =>
    obtain ⟨hfirst, hrest⟩ := List.forall_mem_cons.1 h
    exact bind_eq_ok.2 ⟨(), hfirst, ih hrest⟩

theorem forM_eq_error {f : α → Except ε Unit} {xs : List α} {e : ε} (h : xs.forM f = .error e) :
    ∃ x ∈ xs, f x = .error e := by
  induction xs with
  | nil => exact absurd h (by simp [pure, Except.pure])
  | cons x xs ih =>
    rcases bind_eq_error.1 h with hx | ⟨_, -, hrest⟩
    · exact ⟨x, List.mem_cons_self, hx⟩
    · obtain ⟨z, hz, hfail⟩ := ih hrest
      exact ⟨z, List.mem_cons_of_mem _ hz, hfail⟩

theorem foldlM_eq_error {f : β → α → Except ε β} {xs : List α} {e : ε} :
    ∀ {b : β}, xs.foldlM f b = .error e → ∃ x ∈ xs, ∃ c, f c x = .error e := by
  induction xs with
  | nil =>
    intro b h
    exact absurd h (by simp [pure, Except.pure])
  | cons x xs ih =>
    intro b h
    rw [List.foldlM_cons, bind_eq_error] at h
    obtain hx | ⟨c, -, hrest⟩ := h
    · exact ⟨x, List.mem_cons_self, b, hx⟩
    · obtain ⟨z, hz, hfail⟩ := ih hrest
      exact ⟨z, List.mem_cons_of_mem _ hz, hfail⟩

theorem foldlM_eq_ok {f : β → α → Except ε β} {xs : List α} {d : β} :
    ∀ {b : β}, xs.foldlM f b = .ok d → ∀ x ∈ xs, ∃ c c', f c x = .ok c' := by
  induction xs with
  | nil =>
    intro b _ x hx
    exact absurd hx List.not_mem_nil
  | cons x xs ih =>
    intro b h y hy
    rw [List.foldlM_cons, bind_eq_ok] at h
    obtain ⟨c, hx, hrest⟩ := h
    rcases List.mem_cons.1 hy with rfl | hy
    · exact ⟨b, c, hx⟩
    · exact ih hrest y hy

end OpenApi.Outcome
