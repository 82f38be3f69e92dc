import Provisioning.Configuration

/-! # Stable parcels

    The stable form in which a configuration crosses a process boundary. Modes are codes there,
    and beside each mode stands the flag that older interface versions know in its place. Some
    parts have a stable form of their own; the others are the same in both forms.
-/

namespace Provisioning

/-! ### Parts -/

/-- The stable form of an initial configuration. -/
structure InitialParcel where
  addresses : List LinkAddress
  routes : List IpPrefix
  dnsServers : List IpAddress
  deriving DecidableEq

/-- The stable form of link layer information. -/
structure Layer2Parcel where
  key? : Option String
  cluster? : Option String
  bssid? : Option MacAddress
  deriving DecidableEq

/-- The stable form of an information element. -/
structure InformationElementParcel where
  id : Int32
  payload : List UInt8
  deriving DecidableEq, Inhabited

/-- The stable form of a scan result. -/
structure ScanResultParcel where
  ssid : String
  bssid? : Option String
  elements : List InformationElementParcel
  deriving DecidableEq, Inhabited

/-- An initial configuration in which nothing is set. -/
def InitialParcel.empty : InitialParcel := ⟨[], [], []⟩

/-- Link layer information in which nothing is set. -/
def Layer2Parcel.empty : Layer2Parcel := ⟨none, none, none⟩

/-! ### The whole -/

/-- The stable form of a configuration. -/
structure Parcel where
  enablesIpv4 : Bool
  enablesIpv6 : Bool
  usesMultinetworkPolicyTracker : Bool
  usesReachabilityMonitor : Bool
  preDhcpActionMs : Int32
  initial? : Option InitialParcel
  staticIp? : Option StaticIpConfiguration
  apf? : Option ApfCapabilities
  provisioningTimeoutMs : Int32
  ipv6AddressGeneration : Int32
  network? : Option Network
  displayName? : Option String
  preconnects : Bool
  scanResult? : Option ScanResultParcel
  layer2? : Option Layer2Parcel
  dhcpOptions? : Option (List DhcpOption)
  ipv4ModeCode : Int32
  ipv6ModeCode : Int32
  onlyUniqueEui64Addresses : Bool
  creatorUid : Int32
  hostnameCode : Int32
  deriving DecidableEq

/-- The parcel in which nothing is set. -/
def Parcel.empty : Parcel where
  enablesIpv4 := false
  enablesIpv6 := false
  usesMultinetworkPolicyTracker := false
  usesReachabilityMonitor := false
  preDhcpActionMs := 0
  initial? := none
  staticIp? := none
  apf? := none
  provisioningTimeoutMs := 0
  ipv6AddressGeneration := 0
  network? := none
  displayName? := none
  preconnects := false
  scanResult? := none
  layer2? := none
  dhcpOptions? := none
  ipv4ModeCode := 0
  ipv6ModeCode := 0
  onlyUniqueEui64Addresses := false
  creatorUid := 0
  hostnameCode := 0

instance : Inhabited Parcel := ⟨Parcel.empty⟩

/-! ### Parts to and from their stable form -/

/-- The stable form. -/
def InitialConfiguration.toParcel (c : InitialConfiguration) : InitialParcel :=
  ⟨c.addresses, c.routes, c.dnsServers⟩

/-- The configuration of a stable form. -/
def InitialConfiguration.ofParcel (p : InitialParcel) : InitialConfiguration :=
  ⟨p.addresses, p.routes, p.dnsServers⟩

/-- The stable form. -/
def Layer2Information.toParcel (i : Layer2Information) : Layer2Parcel :=
  ⟨i.key?, i.cluster?, i.bssid?⟩

/-- The information of a stable form. -/
def Layer2Information.ofParcel (p : Layer2Parcel) : Layer2Information :=
  ⟨p.key?, p.cluster?, p.bssid?⟩

/-- The stable form. -/
def InformationElement.toParcel (e : InformationElement) : InformationElementParcel :=
  ⟨e.id, e.payload⟩

/-- The element of a stable form. -/
def InformationElement.ofParcel (p : InformationElementParcel) : InformationElement :=
  ⟨p.id, p.payload⟩

/-- The stable form. -/
def ScanResult.toParcel (r : ScanResult) : ScanResultParcel :=
  ⟨r.ssid, r.bssid?, r.elements.map InformationElement.toParcel⟩

/-- The scan result of a stable form. -/
def ScanResult.ofParcel (p : ScanResultParcel) : ScanResult :=
  ⟨p.ssid, p.bssid?, p.elements.map InformationElement.ofParcel⟩

end Provisioning
