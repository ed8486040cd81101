/-
  OpenApi.Proofs.Url.Encoding — number signs and percent encoding.

  What percent encoding writes are percent signs and digits, so no number sign comes from it: encoded text holds one
  only where the text held one that stays as it is.
-/
import Mathlib.Data.List.Basic
import OpenApi.Url.Percent

namespace OpenApi.Url

variable {encodes : Char → Bool} {s : List Char}

theorem hexDigit_ne_mark {n : Nat} (h : n < 16) : hexDigit n ≠ '#' := by
  have hall : ∀ n < 16, hexDigit n ≠ '#' := by decide
  exact hall n h

theorem mark_not_mem_encodedByte (b : UInt8) : '#' ∉ encodedByte b := by
  have hb : b.toNat < 256 := b.toNat_lt
  have hhigh : hexDigit (b.toNat / 16) ≠ '#' := hexDigit_ne_mark (by omega)
  have hlow : hexDigit (b.toNat % 16) ≠ '#' := hexDigit_ne_mark (Nat.mod_lt _ (by omega))
  simp [encodedByte, hhigh.symm, hlow.symm]

/-- A number sign in encoded text is one of the text itself. -/
theorem of_mark_mem_encoded (h : '#' ∈ encoded encodes s) : encodes '#' = false ∧ '#' ∈ s := by
  unfold encoded at h
  obtain ⟨c, hc, hmem⟩ := List.mem_flatMap.1 h
  split at hmem
  next =>
    obtain ⟨b, -, hb⟩ := List.mem_flatMap.1 hmem
    exact absurd hb (mark_not_mem_encodedByte b)
  next hplain =>
    rw [← List.mem_singleton.1 hmem] at hplain hc
    exact ⟨Bool.eq_false_iff.2 hplain, hc⟩

/-- Where number signs are encoded, the encoded text holds none. -/
theorem mark_not_mem_encoded (h : encodes '#' = true) (s : List Char) : '#' ∉ encoded encodes s := by
  intro hmem
  exact absurd h (Bool.eq_false_iff.1 (of_mark_mem_encoded hmem).1)

/-- Encoding adds no number sign. -/
theorem mark_not_mem_encoded_of_not_mem (h : '#' ∉ s) : '#' ∉ encoded encodes s :=
  fun hmem => h (of_mark_mem_encoded hmem).2

end OpenApi.Url
