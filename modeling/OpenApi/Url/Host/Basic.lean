/-
  OpenApi.Url.Host.Basic — hosts.

  The host of a special scheme is a domain name or an address. Percent encoding in it is undone, and a name
  is written in ASCII; one that ends in a number is an address. Other schemes keep their host as it is,
  encoded.
-/
import OpenApi.Url.Host.Address
import OpenApi.Url.Host.Label
import OpenApi.Url.Percent

namespace OpenApi.Url

open Text

/-- A host. -/
inductive Host
  | name (text : List Char)
  | ipv4 (address : Nat)
  | ipv6 (pieces : List Nat)
  deriving DecidableEq, Repr

namespace Host

/-- The text of a host. -/
def text : Host → List Char
  | name t => t
  | ipv4 a => ipv4Text a
  | ipv6 ps => ipv6Text ps

/-! ## §1. Reading. -/

/-- The address between brackets, if the text starts with a bracket. -/
def bracketed? (s : List Char) : Option (Except Problem Host) :=
  match s with
  | '[' :: s =>
    some (if s.getLast? = some ']' then (ipv6? s.dropLast).map ipv6 else .error .invalidIpv6)
  | _ => none

/-- Reads the host of a special scheme. -/
def parse (s : List Char) : Except Problem Host :=
  match bracketed? s with
  | some result => result
  | none =>
    match (Utf8.decode? (decoded s)).bind asciiName? with
    | none => .error .internationalName
    | some ascii =>
      if ascii.isEmpty then .error .emptyHost
      else if endsInNumber ascii then (ipv4? ascii).map ipv4
      else .ok (name ascii)

/-- Reads the host of a scheme that is not special. -/
def parseOpaque (s : List Char) : Except Problem Host :=
  match bracketed? s with
  | some result => result
  | none =>
    if s.any isForbidden then .error .invalidDomain else .ok (name (encoded isControl s))

end Host

end OpenApi.Url
