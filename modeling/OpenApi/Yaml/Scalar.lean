/-
  OpenApi.Yaml.Scalar — what a plain scalar stands for.

  Null, booleans, integers and floats have their spellings; anything else is a string. Integers may be
  decimal, hexadecimal, octal or binary; a decimal number with a leading zero is a string. An integer
  that fits 64 bits is exact, one that fits 128 bits only is an error, a larger one is a float.
-/
import OpenApi.Decimal.Double
import OpenApi.Text.Cut
import OpenApi.Yaml.Tag

namespace OpenApi.Yaml

open Decimal Text

/-! ## §1. Values of scalars. -/

/-- The value of a scalar. -/
inductive Scalar
  | null
  | bool (value : Bool)
  | int (value : Int)
  | float (value : Double)
  | string (value : String)
  deriving DecidableEq, Repr

namespace Scalar

/-! ## §2. Spellings. -/

/-- Does the text spell null? -/
def isNull (text : String) : Bool := ["null", "Null", "NULL", "~"].contains text

/-- The boolean that the text spells. -/
def bool? (text : String) : Option Bool :=
  if ["true", "True", "TRUE"].contains text then some true
  else if ["false", "False", "FALSE"].contains text then some false
  else none

/-- The value of a digit in a base of at most sixteen. -/
def digit? (base : Nat) (c : Char) : Option Nat :=
  let n :=
    if c.isDigit then c.toNat - 48
    else if 'a' ≤ c && c ≤ 'f' then c.toNat - 87
    else if 'A' ≤ c && c ≤ 'F' then c.toNat - 55
    else base
  if n < base then some n else none

/-- The number that the digits write; at least one is needed. -/
def natural? (base : Nat) (digits : List Char) : Option Nat :=
  let step (soFar : Option Nat) (c : Char) : Option Nat := do
    let n ← soFar
    let d ← digit? base c
    pure (base * n + d)
  if digits.isEmpty then none else digits.foldl step (some 0)

/-- Is the text a leading zero and more digits, after a sign or none? -/
def hasLeadingZero (s : List Char) : Bool :=
  let digits :=
    match s with
    | '-' :: s => s
    | '+' :: s => s
    | s => s
  match digits with
  | '0' :: c :: rest => (c :: rest).all Char.isDigit
  | _ => false

/-- The number written after a sign: in base sixteen, eight or two after `0x`, `0o` or `0b`, else in
base ten without a leading zero. -/
def magnitude? : List Char → Option Nat
  | '0' :: 'x' :: digits => natural? 16 digits
  | '0' :: 'o' :: digits => natural? 8 digits
  | '0' :: 'b' :: digits => natural? 2 digits
  | digits => if hasLeadingZero digits then none else natural? 10 digits

/-- The integer that the text writes. -/
def integer? : List Char → Option Int
  | '-' :: s => (magnitude? s).map fun n => -(n : Int)
  | '+' :: s => (magnitude? s).map fun n => (n : Int)
  | s => (magnitude? s).map fun n => (n : Int)

/-- The double that a decimal writes: digits with a point or none, and an exponent or none. -/
def decimal? (s : List Char) : Option Double :=
  let whole := s.takeWhile Char.isDigit
  let s := s.dropWhile Char.isDigit
  let (fraction, s) :=
    match s with
    | '.' :: s => (s.takeWhile Char.isDigit, s.dropWhile Char.isDigit)
    | s => ([], s)
  let digits := whole ++ fraction
  if digits.isEmpty then none
  else
    let exponent : Option Int :=
      match s with
      | [] => some 0
      | c :: s =>
        if c = 'e' || c = 'E' then
          match s with
          | '-' :: s => (natural? 10 s).map fun n => -(n : Int)
          | '+' :: s => (natural? 10 s).map fun n => (n : Int)
          | s => (natural? 10 s).map fun n => (n : Int)
        else none
    match natural? 10 digits, exponent with
    | some m, some e => some (Double.ofDecimal m (e - fraction.length))
    | _, _ => none

/-- The double that a decimal writes after a sign or none. -/
def signedDecimal? : List Char → Option Double
  | '-' :: s => (decimal? s).map Double.neg
  | '+' :: s => decimal? s
  | s => decimal? s

/-- The float that the text writes. -/
def float? (text : String) : Option Double :=
  if [".inf", ".Inf", ".INF", "+.inf", "+.Inf", "+.INF"].contains text then some .infinity
  else if ["-.inf", "-.Inf", "-.INF"].contains text then some Double.infinity.neg
  else if [".nan", ".NaN", ".NAN"].contains text then some .nan
  else
    match signedDecimal? text.toList with
    | some x => if x.isFinite then some x else none
    | none => none

/-! ## §3. Integers by size. -/

/-- What becomes of an integer of any size. -/
inductive Sized
  | exact (value : Int)
  /-- More than 64 bits hold, but not more than 128. -/
  | wide
  | huge

/-- Is the integer at least `-2 ^ bits` and below `2 ^ (bits + 1)`? -/
def fits (bits : Nat) (n : Int) : Bool :=
  -(Nat.pow 2 bits : Int) ≤ n && n < (Nat.pow 2 (bits + 1) : Int)

/-- The size of an integer. -/
def sized (n : Int) : Sized :=
  if fits 63 n then .exact n
  else if fits 127 n then .wide
  else .huge

/-! ## §4. Resolution. -/

/-- The value of a plain scalar without a tag; none for an integer of more than 64 bits. -/
def plain? (text : String) : Option Scalar :=
  if text = "" || isNull text then some .null
  else
    match bool? text with
    | some b => some (.bool b)
    | none =>
      let s := text.toList
      -- digits after a leading zero are no number of any kind
      let otherwise : Scalar :=
        if hasLeadingZero s then .string text
        else
          match float? text with
          | some x => .float x
          | none => .string text
      match integer? s with
      | some n =>
        match sized n with
        | .exact n => some (.int n)
        | .wide => none
        | .huge => some otherwise
      | none => some otherwise

/-- The value of a scalar with the tag of integers. -/
def tagInteger? (text : String) : Option Scalar :=
  match integer? text.toList with
  | some n =>
    match sized n with
    | .exact n => some (.int n)
    | _ => none
  | none => none

/-- The value of a scalar without a tag: a plain one is what it looks like. -/
def untagged? (text : String) (plain : Bool) : Option Scalar :=
  if plain then plain? text else some (.string text)

/-- The value of a scalar; a core tag overrules how the scalar looks, and a local tag says nothing. -/
def resolve? (tag : Option Tag) (text : String) (plain : Bool) : Option Scalar :=
  match tag with
  | none => untagged? text plain
  | some t =>
    if t.isLocal then untagged? text plain
    else if t = .core "bool" then (bool? text).map .bool
    else if t = .core "int" then tagInteger? text
    else if t = .core "float" then (float? text).map .float
    else if t = .core "null" then (if isNull text then some .null else none)
    else some (.string text)

end Scalar

end OpenApi.Yaml
