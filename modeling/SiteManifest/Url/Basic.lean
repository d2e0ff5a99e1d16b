/-!
# URLs

What a manifest needs to know of an absolute URL: its scheme, its host if it has one, and its path
in normal form. Query and fragment are read past.
-/
namespace SiteManifest

namespace Url

/-- Why a text is no absolute URL. -/
inductive Fault where
  | relative
  | emptyHost
  | invalidDomainName
  | invalidDomainCharacter
  | invalidPort
  | invalidIpv4
  | invalidIpv6
  deriving DecidableEq, Repr

def Fault.message : Fault → String
  | .relative => "relative URL without a base"
  | .emptyHost => "empty host"
  | .invalidDomainName => "invalid international domain name"
  | .invalidDomainCharacter => "invalid domain character"
  | .invalidPort => "invalid port number"
  | .invalidIpv4 => "invalid IPv4 address"
  | .invalidIpv6 => "invalid IPv6 address"

inductive Host where
  | domain (name : String)
  | ipv4 (address : Nat)
  | ipv6 (pieces : List Nat)
  deriving DecidableEq, Repr

end Url

structure Url where
  scheme : String
  host : Option Url.Host
  path : String
  deriving DecidableEq, Repr

end SiteManifest
