/-
  OpenApi.Text.Utf8 — texts as bytes.

  `bytes` writes a text in UTF-8. `decode?` reads bytes that are UTF-8 throughout; `decodeLossy` reads any
  bytes, with U+FFFD for each longest run that starts no character or breaks off inside one.
-/

namespace OpenApi.Text.Utf8

/-! ## §1. One character. -/

/-- What the first byte of a character tells: its bits, how many bytes follow, and the range of the
next one. -/
structure Lead where
  bits : Nat
  further : Nat
  least : Nat := 0x80
  greatest : Nat := 0xBF

/-- The reading of a first byte. -/
def lead? (b : Nat) : Option Lead :=
  -- the range is narrower where the next byte could write what has a shorter form, or no character
  if b < 0x80 then some ⟨b, 0, 0x80, 0xBF⟩
  else if b < 0xC2 then none
  else if b < 0xE0 then some ⟨b - 0xC0, 1, 0x80, 0xBF⟩
  else if b = 0xE0 then some ⟨0, 2, 0xA0, 0xBF⟩
  else if b = 0xED then some ⟨0xD, 2, 0x80, 0x9F⟩
  else if b < 0xF0 then some ⟨b - 0xE0, 2, 0x80, 0xBF⟩
  else if b = 0xF0 then some ⟨0, 3, 0x90, 0xBF⟩
  else if b < 0xF4 then some ⟨b - 0xF0, 3, 0x80, 0xBF⟩
  else if b = 0xF4 then some ⟨4, 3, 0x80, 0x8F⟩
  else none

/-- Reads `count` further bytes, the next of which lies in a range: the bits, if all are there, and
what follows the bytes that were read. -/
def further (least greatest bits : Nat) : (count : Nat) → List UInt8 → Option Nat × List UInt8
  | 0, rest => (some bits, rest)
  | _ + 1, [] => (none, [])
  | count + 1, b :: rest =>
    if least ≤ b.toNat ∧ b.toNat ≤ greatest then
      further 0x80 0xBF (bits * 64 + (b.toNat - 0x80)) count rest
    else (none, b :: rest)

theorem further_length (least greatest bits count : Nat) (s : List UInt8) :
    (further least greatest bits count s).2.length ≤ s.length := by
  induction s generalizing least greatest bits count with
  | nil => cases count <;> simp [further]
  | cons b rest ih =>
    cases count with
    | zero => simp [further]
    | succ count =>
      simp only [further]
      split
      · exact Nat.le_succ_of_le (ih _ _ _ _)
      · simp

/-- Reads one character after its first byte. -/
def afterLead (b : UInt8) (rest : List UInt8) : Option Nat × List UInt8 :=
  match lead? b.toNat with
  | none => (none, rest)
  | some l => further l.least l.greatest l.bits l.further rest

theorem afterLead_length (b : UInt8) (rest : List UInt8) :
    (afterLead b rest).2.length ≤ rest.length := by
  unfold afterLead
  split
  · simp
  · exact further_length ..

/-! ## §2. Texts. -/

/-- The characters of some bytes: for each run of bytes its character, or nothing. -/
def units : List UInt8 → List (Option Char)
  | [] => []
  | b :: rest =>
    have := afterLead_length b rest
    (afterLead b rest).1.map Char.ofNat :: units (afterLead b rest).2
  termination_by s => s.length
  decreasing_by simp only [List.length_cons]; omega

/-- The text that the bytes write, if they are UTF-8 throughout. -/
def decode? (bytes : List UInt8) : Option (List Char) := (units bytes).mapM id

/-- The text that the bytes write, with U+FFFD for what is not UTF-8. -/
def decodeLossy (bytes : List UInt8) : List Char :=
  (units bytes).map fun c => c.getD (Char.ofNat 0xFFFD)

/-- The bytes of a text. -/
def bytes (s : List Char) : List UInt8 := s.flatMap String.utf8EncodeChar

end OpenApi.Text.Utf8
