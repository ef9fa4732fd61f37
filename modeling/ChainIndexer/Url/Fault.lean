/-
  Why a text is no URL.
-/

namespace ChainIndexer

/-- Why a text is no URL. -/
inductive UrlFault where
  | emptyHost
  | internationalName
  | portNumber
  | ipv4
  | ipv6
  | hostCharacter
  | relativeWithoutBase
  | opaqueBase
  deriving DecidableEq

/-- The wording of a fault. -/
def UrlFault.message : UrlFault → String
  | emptyHost => "empty host"
  | internationalName => "invalid international domain name"
  | portNumber => "invalid port number"
  | ipv4 => "invalid IPv4 address"
  | ipv6 => "invalid IPv6 address"
  | hostCharacter => "invalid domain character"
  | relativeWithoutBase => "relative URL without a base"
  | opaqueBase => "relative URL with a cannot-be-a-base base"

end ChainIndexer
