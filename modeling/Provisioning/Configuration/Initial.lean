import Provisioning.Address.Slash
import Provisioning.Failure

/-! # Initial configuration

    Addresses, routes and name servers that an interface starts with, and the rules for them.
    The rules are checked in a fixed order, and within a rule in the order of the list; the first
    one broken is reported. Main notion: an address is directly connected when one of the routes
    holds it.
-/

namespace Provisioning

/-- What an interface starts with. -/
structure InitialConfiguration where
  addresses : List LinkAddress
  routes : List IpPrefix
  dnsServers : List IpAddress
  deriving DecidableEq

/-- A rule that an initial configuration breaks. -/
inductive InitialConfigurationError
  | noAddress
  | ipv6DefaultRoute (route : IpPrefix)
  | unreachableAddress (address : LinkAddress)
  | unreachableServer (server : IpAddress)
  | wrongIpv6Length (address : LinkAddress)
  | severalIpv4Addresses
  deriving DecidableEq

/-- The prefix length that IPv6 addresses must have. -/
def autoconfigurationLength : Nat := 64

namespace InitialConfigurationError

/-- What is wrong. -/
def detail : InitialConfigurationError → String
  | .noAddress => "no IP address defined"
  | .ipv6DefaultRoute route => s!"IPv6 default route {route} cannot be directly connected"
  | .unreachableAddress address =>
    s!"IP address {address} is not covered by any directly connected route"
  | .unreachableServer server =>
    s!"DNS server {server} is not covered by any directly connected route"
  | .wrongIpv6Length address =>
    s!"IPv6 address {address} should use prefix length {autoconfigurationLength}"
  | .severalIpv4Addresses => "more than one IPv4 address defined"

/-- The failure that the error is reported as. -/
def failure (e : InitialConfigurationError) : Failure :=
  ⟨.invalidConfiguration, "Invalid initial configuration: " ++ e.detail⟩

end InitialConfigurationError

namespace InitialConfiguration

/-- Nothing to start with. -/
def empty : InitialConfiguration := ⟨[], [], []⟩

/-- Whether one of the routes holds an address. -/
def isDirectlyConnected (c : InitialConfiguration) (a : IpAddress) : Bool :=
  c.routes.any fun r => r.contains a

/-- The first broken rule, if there is one. -/
def firstError? (c : InitialConfiguration) : Option InitialConfigurationError :=
  if c.addresses.isEmpty then some .noAddress
  else
    match c.routes.find? IpPrefix.isIpv6DefaultRoute with
    | some route => some (.ipv6DefaultRoute route)
    | none =>
      match c.addresses.find? fun a => !c.isDirectlyConnected a.address with
      | some a => some (.unreachableAddress a)
      | none =>
        match c.dnsServers.find? fun d => !c.isDirectlyConnected d with
        | some d => some (.unreachableServer d)
        | none =>
          match c.addresses.find? fun a =>
              a.address.isIpv6 && a.length != autoconfigurationLength with
          | some a => some (.wrongIpv6Length a)
          | none =>
            if 1 < (c.addresses.filter fun a => a.address.isIpv4).length then
              some .severalIpv4Addresses
            else none

/-- Whether every rule is kept. -/
def validate (c : InitialConfiguration) : Except InitialConfigurationError Unit :=
  match c.firstError? with
  | some e => .error e
  | none => .ok ()

/-- Whether the configuration is valid. -/
def isValid (c : InitialConfiguration) : Bool :=
  c.firstError?.isNone

end InitialConfiguration

end Provisioning
