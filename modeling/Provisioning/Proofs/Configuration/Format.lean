import Provisioning.Proofs.Configuration.Schema
import Provisioning.Proofs.Format.Record

/-! # What configuration files may say

    The keys of a configuration file, record by record: what stands under each key, and what the
    member is where the key is not written. A file is read exactly if it keeps to these tables at
    every depth, so a key that is misspelt anywhere is an error and never passed over.
-/

namespace Provisioning

/-! ### Parts -/

/-- The keys of packet filter capabilities, all required. -/
def ApfCapabilities.table : List (Entry ApfCapabilities) := [
  { name := "apf-version-supported", format := .int32, get := version, default? := none },
  { name := "maximum-apf-program-size", format := .int32, get := maximumProgramSize
    default? := none },
  { name := "apf-packet-format", format := .int32, get := packetFormat, default? := none }]

/-- The only key of a network, required. -/
def Network.table : List (Entry Network) := [
  { name := "net-id", format := .int32, get := id, default? := none }]

/-- The keys of a DHCP option, of which the value may be left out. -/
def DhcpOption.table : List (Entry DhcpOption) := [
  { name := "type", format := .byte, get := code, default? := none },
  { name := "value", format := .option (.list .byte), get := value?, default? := some none }]

/-- The keys of a static configuration. -/
def StaticIpConfiguration.table : List (Entry StaticIpConfiguration) := [
  { name := "ip-address", format := .option .linkAddress, get := address?
    default? := some none },
  { name := "gateway", format := .option .ipAddress, get := gateway?, default? := some none },
  { name := "dns-servers", format := .list .ipAddress, get := dnsServers, default? := some [] },
  { name := "domains", format := .option .text, get := domains?, default? := some none }]

/-- The keys of link layer information. -/
def Layer2Information.table : List (Entry Layer2Information) := [
  { name := "l2-key", format := .option .text, get := key?, default? := some none },
  { name := "cluster", format := .option .text, get := cluster?, default? := some none },
  { name := "bssid", format := .option .macAddress, get := bssid?, default? := some none }]

/-- The keys of an information element, both required. -/
def InformationElement.table : List (Entry InformationElement) := [
  { name := "id", format := .int32, get := id, default? := none },
  { name := "payload", format := .list .byte, get := payload, default? := none }]

/-- The keys of a scan result, of which the network name is required. -/
def ScanResult.table : List (Entry ScanResult) := [
  { name := "ssid", format := .text, get := ssid, default? := none },
  { name := "bssid", format := .option .text, get := bssid?, default? := some none },
  { name := "information-elements", format := .list (.record InformationElement.table)
    get := elements, default? := some [] }]

/-- The keys of an initial configuration. -/
def InitialConfiguration.table : List (Entry InitialConfiguration) := [
  { name := "ip-addresses", format := .list .linkAddress, get := addresses, default? := some [] },
  { name := "directly-connected-routes", format := .list .ipPrefix, get := routes
    default? := some [] },
  { name := "dns-servers", format := .list .ipAddress, get := dnsServers, default? := some [] }]

/-! ### The whole -/

/-- The keys of a configuration, none of which is required. -/
def Configuration.table : List (Entry Configuration) := [
  { name := "using-multinetwork-policy-tracker", format := .boolean
    get := usesMultinetworkPolicyTracker, default? := some false },
  { name := "using-ip-reachability-monitor", format := .boolean
    get := usesReachabilityMonitor, default? := some false },
  { name := "requested-pre-dhcp-action-ms", format := .int32
    get := preDhcpActionMs, default? := some 0 },
  { name := "initial-config", format := .option (.record InitialConfiguration.table)
    get := initial?, default? := some none },
  { name := "static-ip-config", format := .option (.record StaticIpConfiguration.table)
    get := staticIp?, default? := some none },
  { name := "apf-capabilities", format := .option (.record ApfCapabilities.table)
    get := apf?, default? := some none },
  { name := "provisioning-timeout-ms", format := .int32
    get := provisioningTimeoutMs, default? := some 0 },
  { name := "ipv6-addr-gen-mode", format := .int32
    get := ipv6AddressGeneration, default? := some 0 },
  { name := "network", format := .option (.record Network.table)
    get := network?, default? := some none },
  { name := "display-name", format := .option .text, get := displayName?, default? := some none },
  { name := "enable-preconnection", format := .boolean
    get := preconnects, default? := some false },
  { name := "scan-result-info", format := .option (.record ScanResult.table)
    get := scanResult?, default? := some none },
  { name := "layer2-info", format := .option (.record Layer2Information.table)
    get := layer2?, default? := some none },
  { name := "dhcp-options", format := .option (.list (.record DhcpOption.table))
    get := dhcpOptions?, default? := some none },
  { name := "ipv4-provisioning-mode", format := .mode Ipv4Mode
    get := ipv4Mode, default? := some .disabled },
  { name := "ipv6-provisioning-mode", format := .mode Ipv6Mode
    get := ipv6Mode, default? := some .disabled },
  { name := "unique-eui64-addresses-only", format := .boolean
    get := onlyUniqueEui64Addresses, default? := some false },
  { name := "creator-uid", format := .int32, get := creatorUid, default? := some 0 },
  { name := "hostname-setting", format := .mode HostnameSetting
    get := hostname, default? := some .unset }]

/-- What configuration files may say. -/
def Configuration.format : Format Configuration :=
  .record table

/-! ### Schemas and tables -/

instance : ApfCapabilities.schema.Follows ApfCapabilities.table where
  coherent := (inferInstance : ApfCapabilities.schema.Lawful 0).toCoherent

instance : Network.schema.Follows Network.table where
  coherent := (inferInstance : Network.schema.Lawful 0).toCoherent

instance : DhcpOption.schema.Follows DhcpOption.table where
  coherent := (inferInstance : DhcpOption.schema.Lawful 1).toCoherent

instance : StaticIpConfiguration.schema.Follows StaticIpConfiguration.table where
  coherent := (inferInstance : StaticIpConfiguration.schema.Lawful 1).toCoherent

instance : Layer2Information.schema.Follows Layer2Information.table where
  coherent := (inferInstance : Layer2Information.schema.Lawful 0).toCoherent

instance : InformationElement.schema.Follows InformationElement.table where
  coherent := (inferInstance : InformationElement.schema.Lawful 1).toCoherent

instance : ScanResult.schema.Follows ScanResult.table where
  coherent := (inferInstance : ScanResult.schema.Lawful 3).toCoherent

instance : InitialConfiguration.schema.Follows InitialConfiguration.table where
  coherent := (inferInstance : InitialConfiguration.schema.Lawful 1).toCoherent

instance : Configuration.schema.Follows Configuration.table where
  coherent := (inferInstance : Configuration.schema.Lawful 4).toCoherent

instance : Configuration.schema.codec.Follows Configuration.format :=
  inferInstanceAs (Configuration.schema.codec.Follows (.record Configuration.table))

/-! ### Files -/

namespace Configuration

open Yaml (parse?)

/-- A file is read as what its value is decoded to; every error is one of the argument. -/
theorem ofYaml_of_parse? {s : String} {v : Yaml} (h : parse? s = some v) :
    (∀ c, ofYaml s = .ok c ↔ schema.codec.decode Yaml.source v = .ok c) ∧
      ((∀ c, schema.codec.decode Yaml.source v ≠ .ok c) →
        ∃ f, ofYaml s = .error f ∧ f.kind = .invalidArgument) := by
  unfold ofYaml
  rw [schema.codec.ofYaml_of_parse? h]
  cases schema.codec.decode Yaml.source v with
  | ok c => exact ⟨fun _ => ⟨congrArg Except.ok ∘ Except.ok.inj,
      congrArg Except.ok ∘ Except.ok.inj⟩, fun hnot => absurd rfl (hnot c)⟩
  | error e => exact ⟨fun _ => ⟨nofun, nofun⟩, fun _ => ⟨_, rfl, rfl⟩⟩

end Configuration

end Provisioning
