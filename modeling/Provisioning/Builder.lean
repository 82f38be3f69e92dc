import Provisioning.Configuration
import Provisioning.Failure

/-! # Building configurations

    A configuration is built by a sequence of settings, starting from the defaults of the
    platform. Each setting writes one member, or two for a static configuration, and the last
    write of a member counts. The only rule is checked at the end: with IPv6 restricted to
    link-local addresses, IPv4 must be disabled.
-/

namespace Provisioning

/-- How long provisioning may take by default. -/
def defaultProvisioningTimeoutMs : Int32 := 18000

/-- How long to wait for an action before DHCP by default. -/
def defaultPreDhcpActionMs : Int32 := 36000

/-- The code for interface identifiers made from the hardware address. -/
def generationEui64 : Int32 := 0

/-- The code for stable interface identifiers that keep the hardware address private. -/
def generationStablePrivacy : Int32 := 2

/-- One step in building a configuration. -/
inductive Setting
  | withoutIpv4
  | withoutIpv6
  | staticConfiguration (config : StaticIpConfiguration)
  | ipv6LinkLocalOnly
  /-- An action before DHCP, with the default time to wait if none is given. -/
  | preDhcpAction (timeoutMs? : Option Int32)
  | preconnection
  | initialConfiguration (config : InitialConfiguration)
  | apfCapabilities (apf : ApfCapabilities)
  | provisioningTimeoutMs (timeoutMs : Int32)
  | randomMacAddress
  | stableMacAddress
  | network (n : Network)
  | displayName (name : String)
  | scanResult (result : ScanResult)
  | layer2Information (info : Layer2Information)
  | dhcpOptions (options : List DhcpOption)
  | withoutReachabilityMonitor
  | withoutMultinetworkPolicyTracker
  | onlyUniqueEui64Addresses
  | creatorUid (uid : Int32)
  | hostname (setting : HostnameSetting)
  deriving DecidableEq

namespace Setting

/-- The configuration with a setting written into it. -/
def apply (c : Configuration) : Setting → Configuration
  | withoutIpv4 => { c with ipv4Mode := .disabled }
  | withoutIpv6 => { c with ipv6Mode := .disabled }
  | staticConfiguration config => { c with ipv4Mode := .static, staticIp? := some config }
  | ipv6LinkLocalOnly => { c with ipv6Mode := .linkLocal }
  | preDhcpAction timeoutMs? =>
    { c with preDhcpActionMs := timeoutMs?.getD defaultPreDhcpActionMs }
  | preconnection => { c with preconnects := true }
  | initialConfiguration config => { c with initial? := some config }
  | apfCapabilities apf => { c with apf? := some apf }
  | provisioningTimeoutMs timeoutMs => { c with provisioningTimeoutMs := timeoutMs }
  | randomMacAddress => { c with ipv6AddressGeneration := generationEui64 }
  | stableMacAddress => { c with ipv6AddressGeneration := generationStablePrivacy }
  | .network n => { c with network? := some n }
  | displayName text => { c with displayName? := some text }
  | scanResult result => { c with scanResult? := some result }
  | layer2Information info => { c with layer2? := some info }
  | dhcpOptions options => { c with dhcpOptions? := some options }
  | withoutReachabilityMonitor => { c with usesReachabilityMonitor := false }
  | withoutMultinetworkPolicyTracker => { c with usesMultinetworkPolicyTracker := false }
  | onlyUniqueEui64Addresses => { c with onlyUniqueEui64Addresses := true }
  | creatorUid uid => { c with creatorUid := uid }
  | hostname setting => { c with hostname := setting }

end Setting

namespace Configuration

/-- The configuration that a building starts with. -/
def platformDefault : Configuration :=
  { empty with
    usesMultinetworkPolicyTracker := true
    usesReachabilityMonitor := true
    provisioningTimeoutMs := defaultProvisioningTimeoutMs
    ipv6AddressGeneration := generationStablePrivacy
    ipv4Mode := .dhcp
    ipv6Mode := .slaac }

/-- What the settings so far amount to. -/
def accumulate (settings : List Setting) : Configuration :=
  settings.foldl Setting.apply platformDefault

/-- The complaint about IPv4 being on while IPv6 is restricted to link-local addresses. -/
def linkLocalConflict (mode : Ipv4Mode) : Failure :=
  ⟨.invalidConfiguration, "IPv4 must be disabled in IPv6 link-local only mode, " ++
    s!"got IPv4 provisioning mode {mode.name}"⟩

/-- The configuration, unless it breaks the rule. -/
def finish (c : Configuration) : Except Failure Configuration :=
  if c.ipv6Mode = .linkLocal ∧ c.ipv4Mode ≠ .disabled then .error (linkLocalConflict c.ipv4Mode)
  else .ok c

/-- The configuration that a sequence of settings builds. -/
def build (settings : List Setting) : Except Failure Configuration :=
  (accumulate settings).finish

end Configuration

end Provisioning
