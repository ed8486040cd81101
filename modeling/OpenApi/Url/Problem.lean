/-
  OpenApi.Url.Problem — why a text is no URL.
-/

namespace OpenApi.Url

/-- Why a text is no URL. -/
inductive Problem
  | emptyHost
  | internationalName
  | invalidPort
  | invalidIpv4
  | invalidIpv6
  | invalidDomain
  | relativeWithoutBase
  | relativeToOpaqueBase
  deriving DecidableEq, Repr

/-- The problem in words. -/
def Problem.message : Problem → String
  | .emptyHost => "empty host"
  | .internationalName => "invalid international domain name"
  | .invalidPort => "invalid port number"
  | .invalidIpv4 => "invalid IPv4 address"
  | .invalidIpv6 => "invalid IPv6 address"
  | .invalidDomain => "invalid domain character"
  | .relativeWithoutBase => "relative URL without a base"
  | .relativeToOpaqueBase => "relative URL with a cannot-be-a-base base"

end OpenApi.Url
