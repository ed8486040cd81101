/-
  OpenApi.Url.Host.Punycode — labels of a domain in ASCII, written and read.

  A label keeps its ASCII characters in order; a hyphen follows them if there are any; then come the other
  characters, in ascending order, each as the distance from the one before in digits of base 36. The
  thresholds of the digits follow the size of the distances. Distances and the weights of their digits have
  32 bits.
-/
import OpenApi.Text.Cut

namespace OpenApi.Url.Host.Punycode

open Text

/-! ## §1. Digits of one distance. -/

/-- The digit of a value: `a` to `z`, then `0` to `9`. -/
def digit (n : Nat) : Char := if n < 26 then Char.ofNat (97 + n) else Char.ofNat (22 + n)

/-- The threshold of the digit at position `k`. -/
def threshold (k bias : Nat) : Nat :=
  if k ≤ bias then 1 else if bias + 26 ≤ k then 26 else k - bias

theorem threshold_pos (k bias : Nat) : 1 ≤ threshold k bias := by
  unfold threshold; split
  · omega
  · split <;> omega

/-- The digits of a distance, least first. -/
def digits (bias k q : Nat) : List Char :=
  let t := threshold k bias
  if q < t then [digit q]
  else digit (t + (q - t) % (36 - t)) :: digits bias (k + 36) ((q - t) / (36 - t))
  termination_by q
  decreasing_by
    have h := threshold_pos k bias
    have : (q - threshold k bias) / (36 - threshold k bias) ≤ q - threshold k bias :=
      Nat.div_le_self ..
    omega

/-! ## §2. The bias. -/

/-- Divides a distance by 35 until it is small, counting 36 for each division. -/
def settle (distance counted : Nat) : Nat × Nat :=
  if 455 < distance then settle (distance / 35) (counted + 36) else (distance, counted)
  termination_by distance
  decreasing_by omega

/-- The bias after a distance, when `count` characters are written. -/
def nextBias (distance count : Nat) (first : Bool) : Nat :=
  let distance := if first then distance / 700 else distance / 2
  let (left, counted) := settle (distance + distance / count) 0
  counted + 36 * left / (left + 38)

/-! ## §3. Writing labels. -/

/-- What is written so far. -/
structure Progress where
  written : List Char
  distance : Nat
  bias : Nat
  count : Nat

/-- Passes one character of the label while the characters equal to `n` are written. -/
def Progress.pass (basic n : Nat) (p : Progress) (c : Char) : Progress :=
  if c.toNat < n then { p with distance := p.distance + 1 }
  else if c.toNat = n then
    { written := p.written ++ digits p.bias 36 p.distance
      distance := 0
      bias := nextBias p.distance (p.count + 1) (p.count = basic)
      count := p.count + 1 }
  else p

/-- Writes the characters with the given codes, which ascend; codes below `n` are done. -/
def write (label : List Char) (basic : Nat) : List Nat → (n : Nat) → Progress → Progress
  | [], _, p => p
  | code :: rest, n, p =>
    let p := { p with distance := p.distance + (code - n) * (p.count + 1) }
    let p := label.foldl (Progress.pass basic code) p
    write label basic rest (code + 1) { p with distance := p.distance + 1 }

/-- Is the character ASCII? -/
def isAscii (c : Char) : Bool := c.toNat < 0x80

/-- The label in ASCII, without a mark in front. -/
def encode (label : List Char) : List Char :=
  let basic := label.filter isAscii
  let codes := ((label.filter fun c => !isAscii c).map Char.toNat).eraseDups.mergeSort
  let p := write label basic.length codes 0x80 ⟨[], 0, 72, basic.length⟩
  basic ++ (if basic.isEmpty then [] else ['-']) ++ p.written

/-! ## §4. Reading labels. -/

/-- The value of a digit. -/
def digitValue? (c : Char) : Option Nat :=
  if 'a' ≤ c && c ≤ 'z' then some (c.toNat - 97)
  else if c.isDigit then some (c.toNat - 22)
  else none

/-- The bound of distances and weights. -/
def bound : Nat := Nat.pow 2 32

/-- Reads the digits of a distance from position `k` on, which weigh `weight` and more, and adds it to
`distance`; the second part is what follows. -/
def readDistance? (bias : Nat) :
    (k weight distance : Nat) → List Char → Option (Nat × List Char)
  | _, _, _, [] => none
  | k, weight, distance, c :: s =>
    match digitValue? c with
    | none => none
    | some d =>
      let t := threshold k bias
      if bound ≤ distance + d * weight then none
      else if d < t then some (distance + d * weight, s)
      else if bound ≤ weight * (36 - t) then none
      else readDistance? bias (k + 36) (weight * (36 - t)) (distance + d * weight) s

theorem readDistance?_length {bias k weight distance n : Nat} {s rest : List Char}
    (h : readDistance? bias k weight distance s = some (n, rest)) : rest.length < s.length := by
  induction s generalizing k weight distance with
  | nil => simp [readDistance?] at h
  | cons c s ih =>
    simp only [readDistance?] at h
    split at h
    · cases h
    · split at h
      · cases h
      · split at h
        · cases h; exact Nat.lt_succ_self _
        · split at h
          · cases h
          · exact Nat.lt_succ_of_lt (ih h)

/-- Reads distances and puts the character of each into the label. `n` is the code reached, and `start` the
place in the label behind the character put there last. -/
def read? (label : List Char) (n start bias : Nat) (s : List Char) : Option (List Char) :=
  match s with
  | [] => some label
  | c :: s =>
    match h : readDistance? bias 36 1 start (c :: s) with
    | none => none
    | some (distance, rest) =>
      have := readDistance?_length h
      let places := label.length + 1
      -- each time the places run out, the code goes up by one
      let code := n + distance / places
      let i := distance % places
      if code.isValidChar then
        read? (label.insertIdx i (Char.ofNat code)) code (i + 1)
          (nextBias (distance - start) places (start = 0)) rest
      else none
  termination_by s.length
  decreasing_by simp only [List.length_cons] at this ⊢; omega

/-- The label that a text in ASCII stands for, the mark in front left off. -/
def decode? (s : List Char) : Option (List Char) :=
  match splitLast '-' s with
  | some (first :: basic, rest) => read? (first :: basic) 0x80 0 72 rest
  | _ => read? [] 0x80 0 72 s

end OpenApi.Url.Host.Punycode
