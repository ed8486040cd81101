/-
  OpenApi.Proofs.Url.Hosts — the text of hosts.

  A slash ends a host, and so does a number sign, so the text of a host that was read must hold neither. It does not:
  labels are checked, what Punycode writes are letters, digits and hyphens, and addresses are digits with points or
  colons between them (`not_mem_of_parse`).
-/
import Mathlib.Data.List.Basic
import Mathlib.Data.Option.Basic
import OpenApi.Proofs.Outcome
import OpenApi.Proofs.Text.Cut
import OpenApi.Proofs.Url.Encoding
import OpenApi.Url.Host.Basic

namespace OpenApi.Url.Host

open Text

/-- The characters that end a host: a slash starts the path, and a number sign the fragment. -/
inductive IsEnd : Char → Prop
  | slash : IsEnd '/'
  | mark : IsEnd '#'

variable {d : Char}

theorem IsEnd.isForbidden (hd : IsEnd d) : isForbidden d = true := by
  cases hd <;> decide

/-! ## §1. Labels. -/

namespace Punycode

theorem digit_ne (hd : IsEnd d) (n : Nat) : digit n ≠ d := by
  unfold digit
  by_cases h : n < 26
  · have hslash : ∀ n < 26, Char.ofNat (97 + n) ≠ '/' := by decide
    have hmark : ∀ n < 26, Char.ofNat (97 + n) ≠ '#' := by decide
    rw [if_pos h]
    cases hd with
    | slash => exact hslash n h
    | mark => exact hmark n h
  · rw [if_neg h]
    intro heq
    obtain ⟨hpos, hlt⟩ : 0 < d.toNat ∧ d.toNat < 48 := by cases hd <;> decide
    -- the code of a character is the number itself, or zero where there is no such character
    have hcode : (Char.ofNat (22 + n)).toNat = d.toNat := by rw [heq]
    unfold Char.ofNat at hcode
    by_cases hvalid : (22 + n).isValidChar
    · rw [dif_pos hvalid] at hcode
      have hn : 22 + n = d.toNat := hcode
      omega
    · rw [dif_neg hvalid] at hcode
      have hzero : 0 = d.toNat := hcode
      omega

theorem not_mem_digits (hd : IsEnd d) (bias k q : Nat) : d ∉ digits bias k q := by
  induction k, q using digits.induct bias with
  | case1 k q t hlast =>
    unfold digits
    rw [if_pos hlast]
    exact fun h => (digit_ne hd _).symm (List.mem_singleton.1 h)
  | case2 k q t hmore ih =>
    unfold digits
    rw [if_neg hmore]
    exact List.not_mem_cons_of_ne_of_not_mem (digit_ne hd _).symm ih

theorem not_mem_pass (hd : IsEnd d) {basic n : Nat} {p : Progress} {c : Char} (h : d ∉ p.written) :
    d ∉ (p.pass basic n c).written := by
  unfold Progress.pass
  split
  next => exact h
  next =>
    split
    next => exact fun hmem => (List.mem_append.1 hmem).elim h (not_mem_digits hd _ _ _)
    next => exact h

theorem not_mem_write (hd : IsEnd d) {label : List Char} {basic : Nat} (codes : List Nat) :
    ∀ {n : Nat} {p : Progress}, d ∉ p.written → d ∉ (write label basic codes n p).written := by
  have hfold : ∀ {code : Nat} (chars : List Char) {p : Progress}, d ∉ p.written →
      d ∉ (chars.foldl (Progress.pass basic code) p).written := by
    intro code chars
    induction chars with
    | nil => exact fun h => h
    | cons c chars ih => exact fun h => ih (not_mem_pass hd h)
  induction codes with
  | nil => exact fun h => h
  | cons code codes ih =>
    intro n p h
    unfold write
    exact ih (hfold label h)

/-- Punycode writes letters, digits and hyphens. -/
theorem not_mem_encode (hd : IsEnd d) {label : List Char} (h : d ∉ label) : d ∉ encode label := by
  have hbasic : d ∉ label.filter isAscii := fun hmem => h (List.mem_of_mem_filter hmem)
  have hhyphen : d ∉ ['-'] := by cases hd <;> decide
  unfold encode
  dsimp only
  intro hmem
  rcases List.mem_append.1 hmem with hmem | hmem
  · rcases List.mem_append.1 hmem with hmem | hmem
    · exact hbasic hmem
    · split at hmem
      next => exact List.not_mem_nil hmem
      next => exact hhyphen hmem
  · exact not_mem_write hd _ List.not_mem_nil hmem

end Punycode

theorem not_mem_asciiLabel (hd : IsEnd d) {label : List Char} (h : isLabel label = true) : d ∉ asciiLabel label := by
  have hforbidden : isForbiddenInName d = true := by simp [isForbiddenInName, hd.isForbidden]
  have hmark : d ∉ punycodeMark := by cases hd <;> decide
  have hlabel : d ∉ label := by
    intro hmem
    have hany : label.any isForbiddenInName = true := List.any_eq_true.2 ⟨d, hmem, hforbidden⟩
    unfold isLabel at h
    rw [hany] at h
    exact absurd h nofun
  unfold asciiLabel
  split
  next => exact hlabel
  next =>
    intro hmem
    rcases List.mem_append.1 hmem with hmem | hmem
    · exact hmark hmem
    · exact Punycode.not_mem_encode hd hlabel hmem

theorem not_mem_joinWith {c : Char} {parts : List (List Char)} (hc : d ≠ c) (h : ∀ p ∈ parts, d ∉ p) :
    d ∉ joinWith [c] parts := by
  intro hmem
  rcases mem_joinWith hmem with heq | ⟨p, hp, hmem⟩
  · exact hc heq
  · exact h p hp hmem

theorem not_mem_asciiName (hd : IsEnd d) {text name : List Char} (h : asciiName? text = some name) : d ∉ name := by
  have hpoint : d ≠ '.' := by cases hd <;> decide
  unfold asciiName? at h
  simp only [Option.bind_eq_bind, Option.bind_eq_some_iff, Option.guard_eq_some', Option.pure_def, Option.some.injEq] at h
  obtain ⟨_, -, labels, -, _, hlabels, _, -, rfl⟩ := h
  refine not_mem_joinWith hpoint fun p hp => ?_
  obtain ⟨label, hmem, rfl⟩ := List.mem_map.1 hp
  exact not_mem_asciiLabel hd (List.all_eq_true.1 hlabels label hmem)

/-! ## §2. Addresses. -/

theorem digitChar_ne (hd : IsEnd d) (n : Nat) : n.digitChar ≠ d := by
  by_cases h : n < 16
  · have hslash : ∀ n < 16, Nat.digitChar n ≠ '/' := by decide
    have hmark : ∀ n < 16, Nat.digitChar n ≠ '#' := by decide
    cases hd with
    | slash => exact hslash n h
    | mark => exact hmark n h
  · -- beyond base sixteen an asterisk stands for every digit
    have hstar : n.digitChar = '*' := by
      unfold Nat.digitChar
      repeat rw [if_neg (by omega)]
    rw [hstar]
    cases hd <;> decide

theorem not_mem_toDigits (hd : IsEnd d) (base n : Nat) : d ∉ Nat.toDigits base n := by
  have hcore : ∀ (fuel n : Nat) (ds : List Char), d ∉ ds → d ∉ Nat.toDigitsCore base fuel n ds := by
    intro fuel
    induction fuel with
    | zero => exact fun _ _ h => h
    | succ fuel ih =>
      intro n ds h
      have hcons : d ∉ (n % base).digitChar :: ds :=
        List.not_mem_cons_of_ne_of_not_mem (digitChar_ne hd _).symm h
      unfold Nat.toDigitsCore
      dsimp only
      split
      next => exact hcons
      next => exact ih _ _ hcons
  exact hcore _ _ _ List.not_mem_nil

theorem not_mem_ipv4Text (hd : IsEnd d) (address : Nat) : d ∉ ipv4Text address := by
  have hpoint : d ≠ '.' := by cases hd <;> decide
  refine not_mem_joinWith hpoint fun p hp => ?_
  obtain ⟨unit, -, rfl⟩ := List.mem_map.1 hp
  exact not_mem_toDigits hd _ _

theorem not_mem_colonList (hd : IsEnd d) (ns : List Nat) : d ∉ colonList ns := by
  have hcolon : d ≠ ':' := by cases hd <;> decide
  refine not_mem_joinWith hcolon fun p hp => ?_
  obtain ⟨n, -, rfl⟩ := List.mem_map.1 hp
  exact not_mem_toDigits hd _ _

theorem not_mem_ipv6Text (hd : IsEnd d) (ns : List Nat) : d ∉ ipv6Text ns := by
  obtain ⟨hopen, hclose, hcolon⟩ : d ≠ '[' ∧ d ≠ ']' ∧ d ≠ ':' := by cases hd <;> decide
  unfold ipv6Text
  cases longestGap ns with
  | none => simp [not_mem_colonList hd, hopen, hclose]
  | some i => simp [not_mem_colonList hd, hopen, hclose, hcolon]

/-! ## §3. Hosts that were read. -/

/-- No character that ends a host stands in the text of an address in brackets. -/
theorem not_mem_of_bracketed (hd : IsEnd d) {s : List Char} {result : Except Problem Host} {host : Host}
    (h : bracketed? s = some result) (hok : result = .ok host) : d ∉ host.text := by
  unfold bracketed? at h
  split at h
  next =>
    rw [← Option.some.inj h] at hok
    split at hok
    next =>
      obtain ⟨ns, -, rfl⟩ := Outcome.map_eq_ok.1 hok
      exact not_mem_ipv6Text hd ns
    next => exact absurd hok nofun
  next => exact absurd h nofun

/-- **No character that ends a host stands in the text of a host that was read.** -/
theorem not_mem_of_parse (hd : IsEnd d) {s : List Char} {host : Host} (h : parse s = .ok host) : d ∉ host.text := by
  unfold parse at h
  split at h
  next result hbracket => exact not_mem_of_bracketed hd hbracket h
  next =>
    split at h
    next => exact absurd h nofun
    next ascii hascii =>
      obtain ⟨text, -, hname⟩ := Option.bind_eq_some_iff.1 hascii
      split at h
      next => exact absurd h nofun
      next =>
        split at h
        next =>
          obtain ⟨address, -, rfl⟩ := Outcome.map_eq_ok.1 h
          exact not_mem_ipv4Text hd address
        next =>
          rw [← Except.ok.inj h]
          exact not_mem_asciiName hd hname

/-- A number sign is forbidden in hosts that are kept as they are, too. -/
theorem mark_not_mem_of_parseOpaque {s : List Char} {host : Host} (h : parseOpaque s = .ok host) :
    '#' ∉ host.text := by
  unfold parseOpaque at h
  split at h
  next result hbracket => exact not_mem_of_bracketed .mark hbracket h
  next =>
    split at h
    next => exact absurd h nofun
    next hall =>
      rw [← Except.ok.inj h]
      refine mark_not_mem_encoded_of_not_mem fun hmem => hall ?_
      exact List.any_eq_true.2 ⟨'#', hmem, by decide⟩

end OpenApi.Url.Host
