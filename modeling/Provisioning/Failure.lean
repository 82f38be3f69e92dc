/-! # Failures

    What an operation of the library reports when it fails: one of five kinds and a message. The
    text of a failure is the name of the kind and the message behind it.
-/

namespace Provisioning

/-- The kinds of failure. -/
inductive FailureKind
  | bug
  | invalidArgument
  | invalidConfiguration
  | invalidStableData
  | invalidWireContract
  deriving DecidableEq, Repr

/-- The name of a kind. -/
def FailureKind.name : FailureKind → String
  | .bug => "bug"
  | .invalidArgument => "invalid-argument"
  | .invalidConfiguration => "invalid-configuration"
  | .invalidStableData => "invalid-stable-data"
  | .invalidWireContract => "invalid-wire-contract"

instance : ToString FailureKind := ⟨FailureKind.name⟩

/-- A failure with its message. -/
structure Failure where
  kind : FailureKind
  message : String
  deriving DecidableEq, Repr

namespace Failure

instance : ToString Failure := ⟨fun f => s!"{f.kind}: {f.message}"⟩

/-- A failure of reading or writing a file or stream. -/
def ofInputOutput (text : String) : Failure :=
  ⟨.bug, "std::io::Error: " ++ text⟩

/-- Text of the stable form that could not be decoded. -/
def ofStableText (text : String) : Failure :=
  ⟨.invalidStableData, "serde_json::Error: " ++ text⟩

/-- Text of a configuration file that could not be decoded. -/
def ofConfigurationText (text : String) : Failure :=
  ⟨.invalidArgument, "serde_yaml::Error: " ++ text⟩

end Failure

end Provisioning
