import Provisioning.Codec.Text
import Provisioning.Configuration.Schema
import Provisioning.Parcel

/-! # Schemas of parcels

    The records of a parcel as they are written in JSON. The records that have a stable form are
    open: every member is optional, a member of another name is skipped, and what is absent is
    written as null. The parts that have none keep the closed schema they have in a configuration.
-/

namespace Provisioning

/-! ### Parts -/

/-- The members of the stable form of an initial configuration. -/
def InitialParcel.schema : Schema InitialParcel where
  title := "InitialConfigurationParcelable"
  closed := false
  initial := empty
  fields := [
    { name := "ipAddresses", codec := .list .linkAddress
      get := addresses, set := fun c x => { c with addresses := x } },
    { name := "directlyConnectedRoutes", codec := .list .ipPrefix
      get := routes, set := fun c x => { c with routes := x } },
    { name := "dnsServers", codec := .list .ipAddress
      get := dnsServers, set := fun c x => { c with dnsServers := x } }]

/-- The members of the stable form of link layer information. -/
def Layer2Parcel.schema : Schema Layer2Parcel where
  title := "Layer2InformationParcelable"
  closed := false
  initial := empty
  fields := [
    { name := "l2Key", codec := .option .text
      get := key?, set := fun i x => { i with key? := x } },
    { name := "cluster", codec := .option .text
      get := cluster?, set := fun i x => { i with cluster? := x } },
    { name := "bssid", codec := .option .macAddress
      get := bssid?, set := fun i x => { i with bssid? := x } }]

/-- The members of the stable form of an information element. -/
def InformationElementParcel.schema : Schema InformationElementParcel where
  title := "InformationElementParcelable"
  closed := false
  initial := default
  fields := [
    { name := "id", codec := .int32
      get := id, set := fun e x => { e with id := x } },
    { name := "payload", codec := .bytes
      get := payload, set := fun e x => { e with payload := x } }]

/-- The members of the stable form of a scan result. -/
def ScanResultParcel.schema : Schema ScanResultParcel where
  title := "ScanResultInfoParcelable"
  closed := false
  initial := default
  fields := [
    { name := "ssid", codec := .text
      get := ssid, set := fun r x => { r with ssid := x } },
    { name := "bssid", codec := .option .text
      get := bssid?, set := fun r x => { r with bssid? := x } },
    { name := "informationElements", codec := .list InformationElementParcel.schema.codec
      get := elements, set := fun r x => { r with elements := x } }]

/-! ### The whole -/

namespace Parcel

/-- The members of a parcel. -/
def schema : Schema Parcel where
  title := "ProvisioningConfigurationParcelable"
  closed := false
  initial := empty
  fields := [
    { name := "enableIPv4", codec := .boolean
      get := enablesIpv4, set := fun p x => { p with enablesIpv4 := x } },
    { name := "enableIPv6", codec := .boolean
      get := enablesIpv6, set := fun p x => { p with enablesIpv6 := x } },
    { name := "usingMultinetworkPolicyTracker", codec := .boolean
      get := usesMultinetworkPolicyTracker
      set := fun p x => { p with usesMultinetworkPolicyTracker := x } },
    { name := "usingIpReachabilityMonitor", codec := .boolean
      get := usesReachabilityMonitor
      set := fun p x => { p with usesReachabilityMonitor := x } },
    { name := "requestedPreDhcpActionMs", codec := .int32
      get := preDhcpActionMs, set := fun p x => { p with preDhcpActionMs := x } },
    { name := "initialConfig", codec := .option InitialParcel.schema.codec
      get := initial?, set := fun p x => { p with initial? := x } },
    { name := "staticIpConfig", codec := .option StaticIpConfiguration.schema.codec
      get := staticIp?, set := fun p x => { p with staticIp? := x } },
    { name := "apfCapabilities", codec := .option ApfCapabilities.schema.codec
      get := apf?, set := fun p x => { p with apf? := x } },
    { name := "provisioningTimeoutMs", codec := .int32
      get := provisioningTimeoutMs, set := fun p x => { p with provisioningTimeoutMs := x } },
    { name := "ipv6AddrGenMode", codec := .int32
      get := ipv6AddressGeneration, set := fun p x => { p with ipv6AddressGeneration := x } },
    { name := "network", codec := .option Network.schema.codec
      get := network?, set := fun p x => { p with network? := x } },
    { name := "displayName", codec := .option .text
      get := displayName?, set := fun p x => { p with displayName? := x } },
    { name := "enablePreconnection", codec := .boolean
      get := preconnects, set := fun p x => { p with preconnects := x } },
    { name := "scanResultInfo", codec := .option ScanResultParcel.schema.codec
      get := scanResult?, set := fun p x => { p with scanResult? := x } },
    { name := "layer2Info", codec := .option Layer2Parcel.schema.codec
      get := layer2?, set := fun p x => { p with layer2? := x } },
    { name := "options", codec := .option (.list DhcpOption.schema.codec)
      get := dhcpOptions?, set := fun p x => { p with dhcpOptions? := x } },
    { name := "ipv4ProvisioningMode", codec := .int32
      get := ipv4ModeCode, set := fun p x => { p with ipv4ModeCode := x } },
    { name := "ipv6ProvisioningMode", codec := .int32
      get := ipv6ModeCode, set := fun p x => { p with ipv6ModeCode := x } },
    { name := "uniqueEui64AddressesOnly", codec := .boolean
      get := onlyUniqueEui64Addresses
      set := fun p x => { p with onlyUniqueEui64Addresses := x } },
    { name := "creatorUid", codec := .int32
      get := creatorUid, set := fun p x => { p with creatorUid := x } },
    { name := "hostnameSetting", codec := .int32
      get := hostnameCode, set := fun p x => { p with hostnameCode := x } }]

/-! ### JSON text -/

/-- The JSON text of a parcel, on one line. -/
def toJson (p : Parcel) : String :=
  schema.codec.toJson p

/-- The JSON text of a parcel over several lines. -/
def toPrettyJson (p : Parcel) : String :=
  schema.codec.toPrettyJson p

/-- Reads a parcel from JSON text. -/
def ofJson (s : String) : Except Failure Parcel :=
  schema.codec.ofStableText s

end Parcel

end Provisioning
