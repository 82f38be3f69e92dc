import Provisioning.Parcel.Schema
import Provisioning.Proofs.Configuration.Schema
import Provisioning.Proofs.Json.Source

/-! # Lawful schemas of parcels

    Every record of a parcel has a lawful schema, so the JSON text of a parcel is read back as the
    parcel, whatever texts, bytes and addresses it holds and whichever of its parts are absent.
-/

namespace Provisioning

section

variable {depth : Nat}

/-! ### Parts -/

attribute [local simp] InitialParcel.schema in
instance : InitialParcel.schema.Lawful (depth + 1) where

attribute [local simp] Layer2Parcel.schema in
instance : Layer2Parcel.schema.Lawful depth where

attribute [local simp] InformationElementParcel.schema in
instance : InformationElementParcel.schema.Lawful (depth + 1) where

attribute [local simp] ScanResultParcel.schema in
instance : ScanResultParcel.schema.Lawful (depth + 3) where

/-! ### The whole -/

attribute [local simp] Parcel.schema in
instance : Parcel.schema.Lawful (depth + 4) where

end

/-- Every parcel is read back from its JSON text. -/
theorem Parcel.json_round_trip (p : Parcel) : ofJson p.toJson = .ok p :=
  Codec.ofStableText_toJson schema.codec 5 p

end Provisioning
