import Provisioning.Codec.Text

/-! # Wire contracts

    From which interface version on parcels carry explicit modes, and which version is the
    current one. Either defaults to the version that added the modes. A contract is consistent
    when the current version carries them. Contracts are kept in files as YAML text, and what is
    read of a file must be consistent.
-/

namespace Provisioning

/-- What is known of the versions of the stable form. -/
structure WireContract where
  modesSince : UInt32
  currentVersion : UInt32
  deriving DecidableEq

/-- The version that added explicit modes. -/
def versionAddedModes : UInt32 := 12

/-- The version of this library. -/
def currentInterfaceVersion : UInt32 := 12

namespace WireContract

/-- The contract of this library. -/
def standard : WireContract := ⟨versionAddedModes, currentInterfaceVersion⟩

instance : Inhabited WireContract := ⟨standard⟩

/-- Whether parcels of a version carry explicit modes. -/
def carriesModes (k : WireContract) (version : UInt32) : Bool :=
  k.modesSince ≤ version

/-- The complaint about a contract whose current version does not carry the modes. -/
def inconsistent (k : WireContract) : Failure :=
  ⟨.invalidWireContract,
    s!"provisioning-mode-since {k.modesSince} is newer than current-version {k.currentVersion}"⟩

/-- Whether the contract is consistent. -/
def validate (k : WireContract) : Except Failure Unit :=
  if k.currentVersion < k.modesSince then .error k.inconsistent else .ok ()

/-- The members of a contract, both optional. -/
def schema : Schema WireContract where
  title := "WireContract"
  closed := true
  initial := standard
  fields := [
    { name := "provisioning-mode-since", codec := .uint32
      get := modesSince, set := fun k x => { k with modesSince := x } },
    { name := "current-version", codec := .uint32
      get := currentVersion, set := fun k x => { k with currentVersion := x } }]

instance : ToString WireContract := ⟨fun k => Json.compact (schema.codec.encode k)⟩

/-- The failure that a text which is no contract is reported as. -/
def unreadable (text : String) : Failure :=
  ⟨.invalidWireContract, "Invalid wire contract: " ++ text⟩

/-! ### Files -/

/-- The YAML text of a contract. -/
def toYaml (k : WireContract) : String :=
  schema.codec.toYaml k

/-- Reads a contract from YAML text. -/
def ofYaml (s : String) : Except Failure WireContract :=
  match schema.codec.ofYaml s with
  | .error e => .error (unreadable e.message)
  | .ok k => k.validate.map fun _ => k

/-- What loading a contract from a file yields, given the name of the file and either its text or
the reason why there is none. -/
def ofFile (path : String) (contents : Except String String) : Except Failure WireContract :=
  match contents with
  | .error cause =>
    .error ⟨.invalidArgument, s!"Failed to read wire contract file {path}: {cause}"⟩
  | .ok text => ofYaml text

end WireContract

end Provisioning
