import Provisioning.Codec.Text

/-! # Failures as data

    A failure is written as a record of its kind and its message, the kind by its name. It is read
    back from such a record; a name that stands for no kind is refused.
-/

namespace Provisioning

/-! ### Kinds by name -/

/-- All kinds, in order. -/
def FailureKind.all : List FailureKind :=
  [.bug, .invalidArgument, .invalidConfiguration, .invalidStableData, .invalidWireContract]

/-- The kind of the given name. -/
def FailureKind.ofName? (name : String) : Option FailureKind :=
  all.find? (·.name == name)

/-- Kinds of failure, by name. -/
def Codec.failureKind : Codec FailureKind where
  decode src v := do
    let s ← src.want src.text? "string or map" v
    match FailureKind.ofName? s with
    | some k => .ok k
    | none => .error (.unknownVariant s (FailureKind.all.map FailureKind.name))
  encode k := .text k.name

/-! ### Records -/

namespace Failure

/-- The members of a failure, both required. -/
def schema : Schema Failure where
  title := "ProvError"
  closed := false
  initial := ⟨.bug, ""⟩
  fields := [
    { name := "kind", codec := .failureKind, required := true
      get := kind, set := fun f x => { f with kind := x } },
    { name := "msg", codec := .text, required := true
      get := message, set := fun f x => { f with message := x } }]

/-- A failure as JSON text. -/
def toJson (f : Failure) : String :=
  schema.codec.toJson f

end Failure

end Provisioning
