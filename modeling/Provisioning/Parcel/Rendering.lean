import Provisioning.Parcel
import Provisioning.Rendering

/-! # Renderings of configurations and parcels

    The text form of a configuration, of a parcel and of their parts. A configuration shows its
    parts in the stable form, and its modes by name where a parcel shows codes.
-/

namespace Provisioning

open Rendering

/-! ### Parts -/

instance : ToString ApfCapabilities := ⟨fun c =>
  record "ApfCapabilities" [
    ("version", int32 c.version),
    ("maxSize", int32 c.maximumProgramSize),
    ("format", int32 c.packetFormat)]⟩

instance : ToString Network := ⟨fun n => int32 n.id⟩

instance : ToString DhcpOption := ⟨fun o =>
  record "DhcpOption" [
    ("type", String.ofList (Numeral.decimal o.code.toNat)),
    ("value", option bytes o.value?)]⟩

instance : ToString StaticIpConfiguration := ⟨fun c =>
  record "StaticIpConfiguration" [
    ("ipAddress", option toString c.address?),
    ("gateway", option toString c.gateway?),
    ("dnsServers", list toString c.dnsServers),
    ("domains", option (·) c.domains?)]⟩

instance : ToString InitialParcel := ⟨fun c =>
  record "InitialConfigurationParcelable" [
    ("ipAddresses", list toString c.addresses),
    ("directlyConnectedRoutes", list toString c.routes),
    ("dnsServers", list toString c.dnsServers)]⟩

instance : ToString Layer2Parcel := ⟨fun i =>
  record "Layer2InformationParcelable" [
    ("l2Key", option (·) i.key?),
    ("cluster", option (·) i.cluster?),
    ("bssid", option toString i.bssid?)]⟩

instance : ToString InformationElementParcel := ⟨fun e =>
  record "InformationElementParcelable" [
    ("id", int32 e.id),
    ("payload", bytes e.payload)]⟩

instance : ToString ScanResultParcel := ⟨fun r =>
  record "ScanResultInfoParcelable" [
    ("ssid", r.ssid),
    ("bssid", option (·) r.bssid?),
    ("informationElements", list toString r.elements)]⟩

/-! ### The whole -/

/-- The labelled members of a parcel. -/
def Parcel.entries (p : Parcel) : List (String × String) := [
  ("enableIPv4", boolean p.enablesIpv4),
  ("enableIPv6", boolean p.enablesIpv6),
  ("usingMultinetworkPolicyTracker", boolean p.usesMultinetworkPolicyTracker),
  ("usingIpReachabilityMonitor", boolean p.usesReachabilityMonitor),
  ("requestedPreDhcpActionMs", int32 p.preDhcpActionMs),
  ("initialConfig", option toString p.initial?),
  ("staticIpConfig", option toString p.staticIp?),
  ("apfCapabilities", option toString p.apf?),
  ("provisioningTimeoutMs", int32 p.provisioningTimeoutMs),
  ("ipv6AddrGenMode", int32 p.ipv6AddressGeneration),
  ("network", option toString p.network?),
  ("displayName", option (·) p.displayName?),
  ("enablePreconnection", boolean p.preconnects),
  ("scanResultInfo", option toString p.scanResult?),
  ("layer2Info", option toString p.layer2?),
  ("options", option (list toString) p.dhcpOptions?),
  ("ipv4ProvisioningMode", int32 p.ipv4ModeCode),
  ("ipv6ProvisioningMode", int32 p.ipv6ModeCode),
  ("uniqueEui64AddressesOnly", boolean p.onlyUniqueEui64Addresses),
  ("creatorUid", int32 p.creatorUid),
  ("hostnameSetting", int32 p.hostnameCode)]

instance : ToString Parcel := ⟨fun p =>
  record "ProvisioningConfigurationParcelable" p.entries⟩

/-- The labelled members of a configuration. -/
def Configuration.entries (c : Configuration) : List (String × String) := [
  ("usingMultinetworkPolicyTracker", boolean c.usesMultinetworkPolicyTracker),
  ("usingIpReachabilityMonitor", boolean c.usesReachabilityMonitor),
  ("requestedPreDhcpActionMs", int32 c.preDhcpActionMs),
  ("initialConfig", option toString (c.initial?.map InitialConfiguration.toParcel)),
  ("staticIpConfig", option toString c.staticIp?),
  ("apfCapabilities", option toString c.apf?),
  ("provisioningTimeoutMs", int32 c.provisioningTimeoutMs),
  ("ipv6AddrGenMode", int32 c.ipv6AddressGeneration),
  ("network", option toString c.network?),
  ("displayName", option (·) c.displayName?),
  ("enablePreconnection", boolean c.preconnects),
  ("scanResultInfo", option toString (c.scanResult?.map ScanResult.toParcel)),
  ("layer2Info", option toString (c.layer2?.map Layer2Information.toParcel)),
  ("dhcpOptions", option (list toString) c.dhcpOptions?),
  ("ipv4ProvisioningMode", c.ipv4Mode.name),
  ("ipv6ProvisioningMode", c.ipv6Mode.name),
  ("uniqueEui64AddressesOnly", boolean c.onlyUniqueEui64Addresses),
  ("creatorUid", int32 c.creatorUid),
  ("hostnameSetting", c.hostname.name)]

instance : ToString Configuration := ⟨fun c =>
  record "ProvisioningConfiguration" c.entries⟩

end Provisioning
