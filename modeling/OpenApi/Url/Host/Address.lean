/-
  OpenApi.Url.Host.Address — network addresses in place of names.

  A host whose last label is a number is an IPv4 address: up to four numbers, decimal, octal or hexadecimal,
  the last of which fills the bytes that are left. An IPv6 address is written in brackets, as eight pieces of
  which one run of zeros may be left out.
-/
import OpenApi.Text.Cut
import OpenApi.Url.Problem

namespace OpenApi.Url.Host

open Text

/-! ## §1. IPv4. -/

/-- The value of a digit in base sixteen. -/
def digitValue? (c : Char) : Option Nat :=
  if c.isDigit then some (c.toNat - 48)
  else if 'a' ≤ c && c ≤ 'f' then some (c.toNat - 87)
  else if 'A' ≤ c && c ≤ 'F' then some (c.toNat - 55)
  else none

/-- The number that digits of a base write; no digit writes zero. -/
def numberIn? (base : Nat) (digits : List Char) : Option Nat :=
  digits.foldl (fun n c => do
    let n ← n
    let d ← digitValue? c
    if d < base then some (n * base + d) else none) (some 0)

/-- The number of one label. -/
def labelNumber? : List Char → Option Nat
  | [] => none
  | '0' :: 'x' :: s => numberIn? 16 s
  | '0' :: 'X' :: s => numberIn? 16 s
  | '0' :: c :: s => numberIn? 8 (c :: s)
  | s => numberIn? 10 s

/-- The labels of a name; one point at the end counts for nothing. -/
def labels (name : List Char) : List (List Char) :=
  let parts := pieces (· = '.') name
  if parts.getLast? = some [] then parts.dropLast else parts

/-- Is the last label a number? -/
def endsInNumber (name : List Char) : Bool :=
  match (labels name).getLast? with
  | some s => (!s.isEmpty && s.all Char.isDigit) || (labelNumber? s).isSome
  | none => false

/-- The address that a name ending in a number writes. -/
def ipv4? (name : List Char) : Except Problem Nat :=
  match (labels name).mapM labelNumber? with
  | some numbers =>
    let first := numbers.dropLast
    let last := numbers.getLast?.getD 0
    if numbers.length ≤ 4 && first.all (· ≤ 255) && last < Nat.pow 256 (4 - first.length) then
      .ok (first.foldl (fun n b => n * 256 + b) 0 * Nat.pow 256 (4 - first.length) + last)
    else .error .invalidIpv4
  | none => .error .invalidIpv4

/-- The four bytes of an address, with points between them. -/
def ipv4Text (address : Nat) : List Char :=
  joinWith ['.'] ([16777216, 65536, 256, 1].map fun unit =>
    Nat.toDigits 10 (address / unit % 256))

/-! ## §2. IPv6. -/

/-- A byte in decimal, without zeros in front. -/
def byte? (s : List Char) : Option Nat :=
  match s with
  | [] => none
  | ['0'] => some 0
  | '0' :: _ => none
  | s => (numberIn? 10 s).filter (· ≤ 255)

/-- The two pieces that four bytes with points between them write. -/
def tailPieces? (s : List Char) : Option (List Nat) :=
  match (pieces (· = '.') s).mapM byte? with
  | some [a, b, c, d] => some [a * 256 + b, c * 256 + d]
  | _ => none

/-- A piece: one to four hexadecimal digits. -/
def piece? (s : List Char) : Option Nat :=
  if s.isEmpty || 4 < s.length then none else numberIn? 16 s

/-- The pieces between colons; the last may be an IPv4 address. -/
def pieceList? : List (List Char) → Option (List Nat)
  | [] => some []
  | [s] => if s.contains '.' then tailPieces? s else (piece? s).map ([·])
  | s :: rest => do
    let n ← piece? s
    let ns ← pieceList? rest
    pure (n :: ns)

/-- The pieces that a text writes; an empty text writes none. -/
def piecesOf? (s : List Char) : Option (List Nat) :=
  if s.isEmpty then some [] else pieceList? (pieces (· = ':') s)

/-- What stands before and after the first two colons in a row. -/
def splitGap : List Char → Option (List Char × List Char)
  | ':' :: ':' :: s => some ([], s)
  | c :: s => (splitGap s).map fun p => (c :: p.1, p.2)
  | [] => none

/-- The eight pieces of an address. -/
def ipv6? (s : List Char) : Except Problem (List Nat) :=
  let found : Option (List Nat) :=
    match splitGap s with
    | none => (piecesOf? s).filter fun ns => ns.length = 8
    | some (front, back) =>
      if front.contains '.' then none
      else do
        let f ← piecesOf? front
        let b ← piecesOf? back
        if f.length + b.length ≤ 7 then
          pure (f ++ List.replicate (8 - f.length - b.length) 0 ++ b)
        else none
  match found with
  | some ns => .ok ns
  | none => .error .invalidIpv6

/-- The length of the run of zeros at the start. -/
def zeroRun (ns : List Nat) : Nat := (ns.takeWhile (· = 0)).length

/-- Where the longest run of at least two zeros starts, the first of those that are as long. -/
def longestGap (ns : List Nat) : Option Nat :=
  let best := (List.range ns.length).foldl (fun best i =>
    if zeroRun (ns.drop i) > zeroRun (ns.drop best) then i else best) 0
  if zeroRun (ns.drop best) > 1 then some best else none

/-- Pieces with colons between them. -/
def colonList (ns : List Nat) : List Char := joinWith [':'] (ns.map fun n => Nat.toDigits 16 n)

/-- An address in brackets. -/
def ipv6Text (ns : List Nat) : List Char :=
  let body :=
    match longestGap ns with
    | none => colonList ns
    | some i =>
      colonList (ns.take i) ++ [':', ':'] ++ colonList (ns.drop (i + zeroRun (ns.drop i)))
  ['['] ++ body ++ [']']

end OpenApi.Url.Host
