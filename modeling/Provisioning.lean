import Provisioning.Builder
import Provisioning.Failure.Schema
import Provisioning.Main
import Provisioning.Session
import Provisioning.Yaml.Generic
import Provisioning.Proofs.Address.Slash
import Provisioning.Proofs.Json.Value
import Provisioning.Proofs.MacAddress
import Provisioning.Proofs.Mode
import Provisioning.Proofs.Codec
import Provisioning.Proofs.Schema
import Provisioning.Proofs.Configuration.Schema
import Provisioning.Proofs.Parcel.Schema
import Provisioning.Proofs.Json.Source
import Provisioning.Proofs.Json.Members
import Provisioning.Proofs.Json.Grammar
import Provisioning.Proofs.Hop
import Provisioning.Proofs.Parcel.Growth
import Provisioning.Proofs.Yaml.Cursor
import Provisioning.Proofs.Yaml.Plain
import Provisioning.Proofs.Yaml.Quoted
import Provisioning.Proofs.Yaml.Literal
import Provisioning.Proofs.Yaml.State
import Provisioning.Proofs.Yaml.Step
import Provisioning.Proofs.Yaml.Scan
import Provisioning.Proofs.Yaml.Node
import Provisioning.Proofs.Yaml.Scalar
import Provisioning.Proofs.Yaml.Source
import Provisioning.Proofs.Configuration.Equality
import Provisioning.Proofs.CommandLine.Pipeline
import Provisioning.Proofs.Address.Length
import Provisioning.Proofs.Configuration.Initial
import Provisioning.Proofs.Address.Containment
import Provisioning.Proofs.Configuration.Rules
import Provisioning.Proofs.Yaml.Integer
import Provisioning.Proofs.Format
import Provisioning.Proofs.Format.Record
import Provisioning.Proofs.Configuration.Format
import Provisioning.Proofs.WireContract.Format
import Provisioning.Proofs.CommandLine.Contract
import Provisioning.Proofs.Configuration.Coverage
import Provisioning.Proofs.Builder
import Provisioning.Proofs.Mode.Grammar
import Provisioning.Proofs.Numeral.Natural
import Provisioning.Proofs.Numeral.Hexadecimal
import Provisioning.Proofs.MacAddress.Grammar
import Provisioning.Proofs.MacAddress.Faithful
import Provisioning.Proofs.Address.Grammar
import Provisioning.Proofs.Address.Canonical
import Provisioning.Proofs.Rendering
import Provisioning.Proofs.Parcel.Rendering
import Provisioning.Proofs.Configuration.Rendering
import Provisioning.Proofs.Hop.Receipt
