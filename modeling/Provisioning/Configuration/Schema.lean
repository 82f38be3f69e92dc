import Provisioning.Codec.Text
import Provisioning.Configuration

/-! # Schemas of configurations

    The records of a configuration as they are written in configuration files, which are YAML
    text. Names are in lower case with dashes, a member of another name is an error, and members
    that are absent are not written.
-/

namespace Provisioning

/-- Leaves out members that are absent. -/
def omitNone {α : Type} (x : Option α) : Bool := x.isNone

/-- Leaves out lists without items. -/
def omitEmpty {α : Type} (xs : List α) : Bool := xs.isEmpty

/-! ### Parts -/

/-- The members of packet filter capabilities, all required. -/
def ApfCapabilities.schema : Schema ApfCapabilities where
  title := "ApfCapabilities"
  closed := true
  initial := default
  fields := [
    { name := "apf-version-supported", codec := .int32, required := true
      get := version, set := fun c x => { c with version := x } },
    { name := "maximum-apf-program-size", codec := .int32, required := true
      get := maximumProgramSize, set := fun c x => { c with maximumProgramSize := x } },
    { name := "apf-packet-format", codec := .int32, required := true
      get := packetFormat, set := fun c x => { c with packetFormat := x } }]

/-- The only member of a network, required. -/
def Network.schema : Schema Network where
  title := "Network"
  closed := true
  initial := default
  fields := [
    { name := "net-id", codec := .int32, required := true
      get := id, set := fun n x => { n with id := x } }]

/-- The members of a DHCP option. -/
def DhcpOption.schema : Schema DhcpOption where
  title := "DhcpOption"
  closed := true
  initial := default
  fields := [
    { name := "type", codec := .byte, required := true
      get := code, set := fun o x => { o with code := x } },
    { name := "value", codec := .option .bytes, omits := omitNone
      get := value?, set := fun o x => { o with value? := x } }]

/-- The members of a static configuration, all optional. -/
def StaticIpConfiguration.schema : Schema StaticIpConfiguration where
  title := "StaticIpConfiguration"
  closed := true
  initial := empty
  fields := [
    { name := "ip-address", codec := .option .linkAddress, omits := omitNone
      get := address?, set := fun c x => { c with address? := x } },
    { name := "gateway", codec := .option .ipAddress, omits := omitNone
      get := gateway?, set := fun c x => { c with gateway? := x } },
    { name := "dns-servers", codec := .list .ipAddress, omits := omitEmpty
      get := dnsServers, set := fun c x => { c with dnsServers := x } },
    { name := "domains", codec := .option .text, omits := omitNone
      get := domains?, set := fun c x => { c with domains? := x } }]

/-- The members of link layer information, all optional. -/
def Layer2Information.schema : Schema Layer2Information where
  title := "Layer2Information"
  closed := true
  initial := empty
  fields := [
    { name := "l2-key", codec := .option .text, omits := omitNone
      get := key?, set := fun i x => { i with key? := x } },
    { name := "cluster", codec := .option .text, omits := omitNone
      get := cluster?, set := fun i x => { i with cluster? := x } },
    { name := "bssid", codec := .option .macAddress, omits := omitNone
      get := bssid?, set := fun i x => { i with bssid? := x } }]

/-- The members of an information element, both required. -/
def InformationElement.schema : Schema InformationElement where
  title := "InformationElement"
  closed := true
  initial := default
  fields := [
    { name := "id", codec := .int32, required := true
      get := id, set := fun e x => { e with id := x } },
    { name := "payload", codec := .bytes, required := true
      get := payload, set := fun e x => { e with payload := x } }]

/-- The members of a scan result; the list of elements is always written. -/
def ScanResult.schema : Schema ScanResult where
  title := "ScanResultInfo"
  closed := true
  initial := default
  fields := [
    { name := "ssid", codec := .text, required := true
      get := ssid, set := fun r x => { r with ssid := x } },
    { name := "bssid", codec := .option .text, omits := omitNone
      get := bssid?, set := fun r x => { r with bssid? := x } },
    { name := "information-elements", codec := .list InformationElement.schema.codec
      get := elements, set := fun r x => { r with elements := x } }]

/-- The members of an initial configuration, all optional and always written. -/
def InitialConfiguration.schema : Schema InitialConfiguration where
  title := "InitialConfiguration"
  closed := true
  initial := empty
  fields := [
    { name := "ip-addresses", codec := .list .linkAddress
      get := addresses, set := fun c x => { c with addresses := x } },
    { name := "directly-connected-routes", codec := .list .ipPrefix
      get := routes, set := fun c x => { c with routes := x } },
    { name := "dns-servers", codec := .list .ipAddress
      get := dnsServers, set := fun c x => { c with dnsServers := x } }]

/-! ### The whole -/

/-- The members of a configuration, all optional. -/
def Configuration.schema : Schema Configuration where
  title := "ProvisioningConfiguration"
  closed := true
  initial := empty
  fields := [
    { name := "using-multinetwork-policy-tracker", codec := .boolean
      get := usesMultinetworkPolicyTracker
      set := fun c x => { c with usesMultinetworkPolicyTracker := x } },
    { name := "using-ip-reachability-monitor", codec := .boolean
      get := usesReachabilityMonitor
      set := fun c x => { c with usesReachabilityMonitor := x } },
    { name := "requested-pre-dhcp-action-ms", codec := .int32
      get := preDhcpActionMs, set := fun c x => { c with preDhcpActionMs := x } },
    { name := "initial-config", codec := .option InitialConfiguration.schema.codec
      omits := omitNone
      get := initial?, set := fun c x => { c with initial? := x } },
    { name := "static-ip-config", codec := .option StaticIpConfiguration.schema.codec
      omits := omitNone
      get := staticIp?, set := fun c x => { c with staticIp? := x } },
    { name := "apf-capabilities", codec := .option ApfCapabilities.schema.codec
      omits := omitNone
      get := apf?, set := fun c x => { c with apf? := x } },
    { name := "provisioning-timeout-ms", codec := .int32
      get := provisioningTimeoutMs, set := fun c x => { c with provisioningTimeoutMs := x } },
    { name := "ipv6-addr-gen-mode", codec := .int32
      get := ipv6AddressGeneration, set := fun c x => { c with ipv6AddressGeneration := x } },
    { name := "network", codec := .option Network.schema.codec, omits := omitNone
      get := network?, set := fun c x => { c with network? := x } },
    { name := "display-name", codec := .option .text, omits := omitNone
      get := displayName?, set := fun c x => { c with displayName? := x } },
    { name := "enable-preconnection", codec := .boolean
      get := preconnects, set := fun c x => { c with preconnects := x } },
    { name := "scan-result-info", codec := .option ScanResult.schema.codec, omits := omitNone
      get := scanResult?, set := fun c x => { c with scanResult? := x } },
    { name := "layer2-info", codec := .option Layer2Information.schema.codec
      omits := omitNone
      get := layer2?, set := fun c x => { c with layer2? := x } },
    { name := "dhcp-options", codec := .option (.list DhcpOption.schema.codec)
      omits := omitNone
      get := dhcpOptions?, set := fun c x => { c with dhcpOptions? := x } },
    { name := "ipv4-provisioning-mode", codec := .mode Ipv4Mode
      get := ipv4Mode, set := fun c x => { c with ipv4Mode := x } },
    { name := "ipv6-provisioning-mode", codec := .mode Ipv6Mode
      get := ipv6Mode, set := fun c x => { c with ipv6Mode := x } },
    { name := "unique-eui64-addresses-only", codec := .boolean
      get := onlyUniqueEui64Addresses
      set := fun c x => { c with onlyUniqueEui64Addresses := x } },
    { name := "creator-uid", codec := .int32
      get := creatorUid, set := fun c x => { c with creatorUid := x } },
    { name := "hostname-setting", codec := .mode HostnameSetting
      get := hostname, set := fun c x => { c with hostname := x } }]

/-! ### Files -/

namespace Configuration

/-- The YAML text of a configuration. -/
def toYaml (c : Configuration) : String :=
  schema.codec.toYaml c

/-- Reads a configuration from YAML text. -/
def ofYaml (s : String) : Except Failure Configuration :=
  match schema.codec.ofYaml s with
  | .ok c => .ok c
  | .error e => .error (.ofConfigurationText e.message)

end Configuration

end Provisioning
