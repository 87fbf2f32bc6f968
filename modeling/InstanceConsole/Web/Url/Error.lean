/-!
# Why a URL is refused
-/

set_option autoImplicit false

namespace InstanceConsole

inductive UrlError
  | emptyHost
  | invalidInternationalName
  | invalidPort
  | invalidIpv4Address
  | invalidIpv6Address
  | invalidDomainCharacter
  | relativeWithoutBase
  | relativeToRigidBase
  deriving DecidableEq, Repr

def UrlError.message : UrlError → String
  | .emptyHost => "empty host"
  | .invalidInternationalName => "invalid international domain name"
  | .invalidPort => "invalid port number"
  | .invalidIpv4Address => "invalid IPv4 address"
  | .invalidIpv6Address => "invalid IPv6 address"
  | .invalidDomainCharacter => "invalid domain character"
  | .relativeWithoutBase => "relative URL without a base"
  | .relativeToRigidBase => "relative URL with a cannot-be-a-base base"

end InstanceConsole
