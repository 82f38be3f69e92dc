import Provisioning.Parcel
import Provisioning.WireContract

/-! # Hops

    A hop takes a configuration across a process boundary: into a parcel on one side, out of it
    on the other. The receiver knows the interface version of the sender. If parcels of that
    version carry explicit modes these are taken, known or not, and the flags are ignored; else
    the modes are derived from the flags. What a receiver logs is part of its result.
-/

namespace Provisioning

/-! ### Log records -/

/-- How much a log record matters. -/
inductive LogLevel
  | warn
  | info
  | debug
  deriving DecidableEq, Repr

/-- The name of a level. -/
def LogLevel.name : LogLevel → String
  | .warn => "warn"
  | .info => "info"
  | .debug => "debug"

/-- A log record. -/
structure LogRecord where
  level : LogLevel
  message : String
  deriving DecidableEq, Repr

/-! ### Into a parcel -/

namespace Configuration

/-- The stable form of a configuration. -/
def toParcel (c : Configuration) : Parcel where
  enablesIpv4 := c.ipv4Mode.isEnabled
  enablesIpv6 := c.ipv6Mode.isEnabled
  usesMultinetworkPolicyTracker := c.usesMultinetworkPolicyTracker
  usesReachabilityMonitor := c.usesReachabilityMonitor
  preDhcpActionMs := c.preDhcpActionMs
  initial? := c.initial?.map InitialConfiguration.toParcel
  staticIp? := c.staticIp?
  apf? := c.apf?
  provisioningTimeoutMs := c.provisioningTimeoutMs
  ipv6AddressGeneration := c.ipv6AddressGeneration
  network? := c.network?
  displayName? := c.displayName?
  preconnects := c.preconnects
  scanResult? := c.scanResult?.map ScanResult.toParcel
  layer2? := c.layer2?.map Layer2Information.toParcel
  dhcpOptions? := c.dhcpOptions?
  ipv4ModeCode := c.ipv4Mode.code
  ipv6ModeCode := c.ipv6Mode.code
  onlyUniqueEui64Addresses := c.onlyUniqueEui64Addresses
  creatorUid := c.creatorUid
  hostnameCode := c.hostname.code

end Configuration

/-! ### Out of a parcel -/

/-- A mode that was read from a parcel, and what was logged about it. -/
structure Received (μ : Type) where
  mode : μ
  logs : List LogRecord
  deriving DecidableEq

/-- The record about a mode of unknown code. -/
def LogRecord.unknownMode (family : String) (code : UnknownCode) (version : UInt32) : LogRecord :=
  ⟨.warn, s!"Carrying unknown {family} provisioning mode " ++
    String.ofList (Numeral.signedDecimal code.value.toInt) ++
    s!" from interface version {version}"⟩

/-- The record about a mode that is derived from a flag. -/
def LogRecord.derivedMode (family : String) (flag : Bool) (version : UInt32) : LogRecord :=
  ⟨.debug, s!"Interface version {version} predates explicit {family} provisioning mode, " ++
    s!"deriving from enable{family} {flag}"⟩

/-- The mode of a family from its code or its flag, `enabled` and `disabled` being the modes
that the flag stands for. -/
def receiveMode {μ : Type} [Mode μ] (family : String) (enabled disabled : μ) (code : Int32)
    (flag : Bool) (version : UInt32) (k : WireContract) : Received μ :=
  if k.carriesModes version then
    let mode := Mode.ofCode code
    match Mode.unknownCode? mode with
    | some c => ⟨mode, [.unknownMode family c version]⟩
    | none => ⟨mode, []⟩
  else ⟨if flag then enabled else disabled, [.derivedMode family flag version]⟩

namespace Parcel

/-- The IPv4 mode of a parcel. -/
def receiveIpv4Mode (p : Parcel) (version : UInt32) (k : WireContract) : Received Ipv4Mode :=
  receiveMode "IPv4" .dhcp .disabled p.ipv4ModeCode p.enablesIpv4 version k

/-- The IPv6 mode of a parcel. -/
def receiveIpv6Mode (p : Parcel) (version : UInt32) (k : WireContract) : Received Ipv6Mode :=
  receiveMode "IPv6" .slaac .disabled p.ipv6ModeCode p.enablesIpv6 version k

/-- The configuration of a parcel of the given version. -/
def toConfiguration (p : Parcel) (version : UInt32) (k : WireContract) : Configuration where
  usesMultinetworkPolicyTracker := p.usesMultinetworkPolicyTracker
  usesReachabilityMonitor := p.usesReachabilityMonitor
  preDhcpActionMs := p.preDhcpActionMs
  initial? := p.initial?.map InitialConfiguration.ofParcel
  staticIp? := p.staticIp?
  apf? := p.apf?
  provisioningTimeoutMs := p.provisioningTimeoutMs
  ipv6AddressGeneration := p.ipv6AddressGeneration
  network? := p.network?
  displayName? := p.displayName?
  preconnects := p.preconnects
  scanResult? := p.scanResult?.map ScanResult.ofParcel
  layer2? := p.layer2?.map Layer2Information.ofParcel
  dhcpOptions? := p.dhcpOptions?
  ipv4Mode := (p.receiveIpv4Mode version k).mode
  ipv6Mode := (p.receiveIpv6Mode version k).mode
  onlyUniqueEui64Addresses := p.onlyUniqueEui64Addresses
  creatorUid := p.creatorUid
  hostname := Mode.ofCode p.hostnameCode

/-- What is logged when a parcel is received. -/
def receiptLogs (p : Parcel) (version : UInt32) (k : WireContract) : List LogRecord :=
  (p.receiveIpv4Mode version k).logs ++ (p.receiveIpv6Mode version k).logs

end Parcel

end Provisioning
