import Provisioning.Configuration.Initial
import Provisioning.MacAddress
import Provisioning.Mode

/-! # Provisioning configurations

    How an interface is to be given its addresses: the configuration and the records that it is
    made of. A member that is absent and one that is present but empty are different throughout.
-/

namespace Provisioning

/-! ### Parts -/

/-- What the packet filter of the link can do. -/
structure ApfCapabilities where
  /-- The version of the interpreter; zero means that there is none. -/
  version : Int32
  maximumProgramSize : Int32
  packetFormat : Int32
  deriving DecidableEq, Inhabited

/-- Whether filter programs may keep data. -/
def ApfCapabilities.hasDataAccess (c : ApfCapabilities) : Bool :=
  4 ≤ c.version.toInt

/-- The network that an interface belongs to. -/
structure Network where
  id : Int32
  deriving DecidableEq, Inhabited

/-- A DHCP option; without a value it is only asked for. -/
structure DhcpOption where
  code : UInt8
  value? : Option (List UInt8)
  deriving DecidableEq, Inhabited

/-- The code of the vendor class identifier option. -/
def DhcpOption.vendorClassId : UInt8 := 60

/-- The code of the user class option. -/
def DhcpOption.userClass : UInt8 := 77

/-- A static configuration; `domains` are search domains with blanks between them. -/
structure StaticIpConfiguration where
  address? : Option LinkAddress
  gateway? : Option IpAddress
  dnsServers : List IpAddress
  domains? : Option String
  deriving DecidableEq

/-- A static configuration that says nothing. -/
def StaticIpConfiguration.empty : StaticIpConfiguration := ⟨none, none, [], none⟩

/-- What is known of the link layer. -/
structure Layer2Information where
  key? : Option String
  cluster? : Option String
  bssid? : Option MacAddress
  deriving DecidableEq

/-- Link layer information that says nothing. -/
def Layer2Information.empty : Layer2Information := ⟨none, none, none⟩

/-- A tagged part of a beacon or probe response. -/
structure InformationElement where
  id : Int32
  payload : List UInt8
  deriving DecidableEq, Inhabited

/-- The tag of vendor specific information elements. -/
def InformationElement.vendorSpecificId : Int32 := 0xdd

/-- What a scan found, its elements in the order in which they were received. -/
structure ScanResult where
  ssid : String
  bssid? : Option String
  elements : List InformationElement
  deriving DecidableEq, Inhabited

/-- The vendor specific elements. -/
def ScanResult.vendorSpecificElements (r : ScanResult) : List InformationElement :=
  r.elements.filter fun e => e.id == InformationElement.vendorSpecificId

/-! ### The whole -/

/-- How an interface is to be provisioned. -/
structure Configuration where
  usesMultinetworkPolicyTracker : Bool
  usesReachabilityMonitor : Bool
  /-- How long to wait for the action before DHCP; zero means that there is none. -/
  preDhcpActionMs : Int32
  initial? : Option InitialConfiguration
  staticIp? : Option StaticIpConfiguration
  apf? : Option ApfCapabilities
  provisioningTimeoutMs : Int32
  /-- How IPv6 interface identifiers are made, as a code of the kernel. -/
  ipv6AddressGeneration : Int32
  network? : Option Network
  displayName? : Option String
  preconnects : Bool
  scanResult? : Option ScanResult
  layer2? : Option Layer2Information
  /-- Options of the user's own; none at all differs from an empty list. -/
  dhcpOptions? : Option (List DhcpOption)
  ipv4Mode : Ipv4Mode
  ipv6Mode : Ipv6Mode
  onlyUniqueEui64Addresses : Bool
  creatorUid : Int32
  hostname : HostnameSetting

namespace Configuration

/-- Whether two configurations agree in every member. -/
protected def beq (a b : Configuration) : Bool :=
  a.usesMultinetworkPolicyTracker == b.usesMultinetworkPolicyTracker
    && a.usesReachabilityMonitor == b.usesReachabilityMonitor
    && a.preDhcpActionMs == b.preDhcpActionMs
    && a.initial? == b.initial?
    && a.staticIp? == b.staticIp?
    && a.apf? == b.apf?
    && a.provisioningTimeoutMs == b.provisioningTimeoutMs
    && a.ipv6AddressGeneration == b.ipv6AddressGeneration
    && a.network? == b.network?
    && a.displayName? == b.displayName?
    && a.preconnects == b.preconnects
    && a.scanResult? == b.scanResult?
    && a.layer2? == b.layer2?
    && a.dhcpOptions? == b.dhcpOptions?
    && a.ipv4Mode == b.ipv4Mode
    && a.ipv6Mode == b.ipv6Mode
    && a.onlyUniqueEui64Addresses == b.onlyUniqueEui64Addresses
    && a.creatorUid == b.creatorUid
    && a.hostname == b.hostname

instance : BEq Configuration := ⟨Configuration.beq⟩

/-- Configurations that agree in every member are the same. -/
instance : LawfulBEq Configuration where
  rfl {a} := by
    show a.beq a = true
    simp [Configuration.beq]
  eq_of_beq {a b} h := by
    have h : a.beq b = true := h
    obtain ⟨⟩ := a
    obtain ⟨⟩ := b
    simpa [Configuration.beq, and_assoc] using h

instance : DecidableEq Configuration :=
  fun a b => decidable_of_iff ((a == b) = true) beq_iff_eq

/-- The configuration in which nothing is set. -/
def empty : Configuration where
  usesMultinetworkPolicyTracker := false
  usesReachabilityMonitor := false
  preDhcpActionMs := 0
  initial? := none
  staticIp? := none
  apf? := none
  provisioningTimeoutMs := 0
  ipv6AddressGeneration := 0
  network? := none
  displayName? := none
  preconnects := false
  scanResult? := none
  layer2? := none
  dhcpOptions? := none
  ipv4Mode := .disabled
  ipv6Mode := .disabled
  onlyUniqueEui64Addresses := false
  creatorUid := 0
  hostname := .unset

instance : Inhabited Configuration := ⟨empty⟩

/-- Whether the rules are kept; only an initial configuration has any. -/
def validate (c : Configuration) : Except InitialConfigurationError Unit :=
  match c.initial? with
  | some i => i.validate
  | none => .ok ()

/-- Whether the configuration is valid. -/
def isValid (c : Configuration) : Bool :=
  match c.validate with
  | .ok _ => true
  | .error _ => false

end Configuration

end Provisioning
