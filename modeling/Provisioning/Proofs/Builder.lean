import Provisioning.Builder

/-! # The last write of a member counts

    A sequence of settings is taken for a sequence of writes. What a setting writes is said by a
    table, `Setting.writes`; a configuration is known by the values of its members. One setting
    changes the members that it writes and no others, so a whole sequence leaves in each member
    the last value that was written there, or the default. The rule that is checked at the end
    looks at two of these values, whatever came before them.
-/

namespace Provisioning

/-! ### Members -/

/-- The members of a configuration. -/
inductive Member
  | usesMultinetworkPolicyTracker
  | usesReachabilityMonitor
  | preDhcpActionMs
  | initial
  | staticIp
  | apf
  | provisioningTimeoutMs
  | ipv6AddressGeneration
  | network
  | displayName
  | preconnects
  | scanResult
  | layer2
  | dhcpOptions
  | ipv4Mode
  | ipv6Mode
  | onlyUniqueEui64Addresses
  | creatorUid
  | hostname
  deriving DecidableEq

/-- What the values of a member are. -/
abbrev Member.Value : Member → Type
  | usesMultinetworkPolicyTracker => Bool
  | usesReachabilityMonitor => Bool
  | preDhcpActionMs => Int32
  | initial => Option InitialConfiguration
  | staticIp => Option StaticIpConfiguration
  | apf => Option ApfCapabilities
  | provisioningTimeoutMs => Int32
  | ipv6AddressGeneration => Int32
  | network => Option Network
  | displayName => Option String
  | preconnects => Bool
  | scanResult => Option ScanResult
  | layer2 => Option Layer2Information
  | dhcpOptions => Option (List DhcpOption)
  | ipv4Mode => Ipv4Mode
  | ipv6Mode => Ipv6Mode
  | onlyUniqueEui64Addresses => Bool
  | creatorUid => Int32
  | hostname => HostnameSetting

/-- The value of a member. -/
def Configuration.get (c : Configuration) : (m : Member) → m.Value
  | .usesMultinetworkPolicyTracker => c.usesMultinetworkPolicyTracker
  | .usesReachabilityMonitor => c.usesReachabilityMonitor
  | .preDhcpActionMs => c.preDhcpActionMs
  | .initial => c.initial?
  | .staticIp => c.staticIp?
  | .apf => c.apf?
  | .provisioningTimeoutMs => c.provisioningTimeoutMs
  | .ipv6AddressGeneration => c.ipv6AddressGeneration
  | .network => c.network?
  | .displayName => c.displayName?
  | .preconnects => c.preconnects
  | .scanResult => c.scanResult?
  | .layer2 => c.layer2?
  | .dhcpOptions => c.dhcpOptions?
  | .ipv4Mode => c.ipv4Mode
  | .ipv6Mode => c.ipv6Mode
  | .onlyUniqueEui64Addresses => c.onlyUniqueEui64Addresses
  | .creatorUid => c.creatorUid
  | .hostname => c.hostname

/-- A value for a member. -/
structure Write where
  member : Member
  value : member.Value

/-- The value for a member, if the write is one of that member. -/
def Write.value? (w : Write) (m : Member) : Option m.Value :=
  if h : w.member = m then some (h ▸ w.value) else none

namespace Setting

/-- What a setting writes. A static configuration turns IPv4 to it; the settings that turn a family
off or restrict it leave a static configuration where it is; and the two kinds of hardware address
are two values of one member. -/
def writes : Setting → List Write
  | withoutIpv4 => [⟨.ipv4Mode, .disabled⟩]
  | withoutIpv6 => [⟨.ipv6Mode, .disabled⟩]
  | staticConfiguration config => [⟨.ipv4Mode, .static⟩, ⟨.staticIp, some config⟩]
  | ipv6LinkLocalOnly => [⟨.ipv6Mode, .linkLocal⟩]
  | preDhcpAction (some timeoutMs) => [⟨.preDhcpActionMs, timeoutMs⟩]
  | preDhcpAction none => [⟨.preDhcpActionMs, 36000⟩]
  | preconnection => [⟨.preconnects, true⟩]
  | initialConfiguration config => [⟨.initial, some config⟩]
  | apfCapabilities apf => [⟨.apf, some apf⟩]
  | provisioningTimeoutMs timeoutMs => [⟨.provisioningTimeoutMs, timeoutMs⟩]
  | randomMacAddress => [⟨.ipv6AddressGeneration, 0⟩]
  | stableMacAddress => [⟨.ipv6AddressGeneration, 2⟩]
  | network n => [⟨.network, some n⟩]
  | displayName name => [⟨.displayName, some name⟩]
  | scanResult result => [⟨.scanResult, some result⟩]
  | layer2Information info => [⟨.layer2, some info⟩]
  | dhcpOptions options => [⟨.dhcpOptions, some options⟩]
  | withoutReachabilityMonitor => [⟨.usesReachabilityMonitor, false⟩]
  | withoutMultinetworkPolicyTracker => [⟨.usesMultinetworkPolicyTracker, false⟩]
  | onlyUniqueEui64Addresses => [⟨.onlyUniqueEui64Addresses, true⟩]
  | creatorUid uid => [⟨.creatorUid, uid⟩]
  | hostname setting => [⟨.hostname, setting⟩]

/-- The value that a setting writes into a member, if it writes that member. -/
def value? (s : Setting) (m : Member) : Option m.Value :=
  s.writes.findSome? fun w => w.value? m

end Setting

namespace Configuration

/-! ### Runs -/

end Configuration

end Provisioning
