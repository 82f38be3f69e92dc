import Provisioning.Configuration.Schema
import Provisioning.Proofs.Schema
import Provisioning.Proofs.Yaml.Source

/-! # Lawful schemas of configurations

    Every record of a configuration file has a lawful schema. The depth is how deeply the lists
    and records inside a record are nested, the record itself not counted. The first member of a
    configuration is always written, so the text of a configuration is that of a record with
    members and is read back as the configuration.
-/

namespace Provisioning

section

variable {depth : Nat}

attribute [local simp] omitNone omitEmpty

/-! ### Parts -/

attribute [local simp] ApfCapabilities.schema in
instance : ApfCapabilities.schema.Lawful depth where

attribute [local simp] Network.schema in
instance : Network.schema.Lawful depth where

@[simp] theorem DhcpOption.default_value? : (default : DhcpOption).value? = none := rfl

attribute [local simp] DhcpOption.schema in
instance : DhcpOption.schema.Lawful (depth + 1) where

attribute [local simp] StaticIpConfiguration.schema StaticIpConfiguration.empty in
instance : StaticIpConfiguration.schema.Lawful (depth + 1) where

attribute [local simp] Layer2Information.schema Layer2Information.empty in
instance : Layer2Information.schema.Lawful depth where

attribute [local simp] InformationElement.schema in
instance : InformationElement.schema.Lawful (depth + 1) where

@[simp] theorem ScanResult.default_bssid? : (default : ScanResult).bssid? = none := rfl

attribute [local simp] ScanResult.schema in
instance : ScanResult.schema.Lawful (depth + 3) where

attribute [local simp] InitialConfiguration.schema in
instance : InitialConfiguration.schema.Lawful (depth + 1) where

/-! ### The whole -/

attribute [local simp] Configuration.schema Configuration.empty in
instance : Configuration.schema.Lawful (depth + 4) where

end

/-! ### Files -/

namespace Configuration

/-- What a configuration is written as starts with the first member of the schema. -/
theorem exists_encode_eq (c : Configuration) :
    ∃ ms, schema.codec.encode c =
      .record (("using-multinetwork-policy-tracker", .boolean c.usesMultinetworkPolicyTracker) ::
        ms) :=
  ⟨_, rfl⟩

/-- Every configuration is read back from its YAML text. -/
theorem yaml_round_trip (c : Configuration) : ofYaml c.toYaml = .ok c := by
  obtain ⟨ms, hencode⟩ := exists_encode_eq c
  have hread := Codec.ofYaml_toYaml schema.codec 5 (by decide) hencode
  unfold ofYaml toYaml
  rw [hread]

end Configuration

end Provisioning
