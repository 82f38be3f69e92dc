import Mathlib.Tactic.SplitIfs
import Provisioning.Hop
import Provisioning.Proofs.Parcel.Rendering

/-! # A configuration is shown like its parcel

    The text of a configuration is made of the entries that the text of its parcel is made of, in
    the same order. An entry of the parcel says by its label what becomes of it: the flags are left
    out, the options come under another label, and a code gives way to the name that it has in its
    setting. This is done to the texts of the entries alone, whatever the values are that they show.

    Main statement: `toString_eq_of_parcel`.
-/

namespace Provisioning

open Rendering

/-! ### Names for codes -/

/-- The name for the text of a code, `names` being those of the codes 0, 1 and 2. -/
def nameForCode (names : List String) (code : String) : String :=
  ((["0", "1", "2"].zip names).lookup code).getD "unknown"

/-- The name depends on the code alone, since different codes have different texts. -/
theorem nameForCode_int32 (zero one two : String) (c : Int32) :
    nameForCode [zero, one, two] (int32 c) =
      if c = 0 then zero else if c = 1 then one else if c = 2 then two else "unknown" := by
  have htext : ∀ d : Int32, int32 c = int32 d ↔ c = d := fun d => plain_int32.injective.eq_iff
  have h0 : int32 c = "0" ↔ c = 0 := htext 0
  have h1 : int32 c = "1" ↔ c = 1 := htext 1
  have h2 : int32 c = "2" ↔ c = 2 := htext 2
  unfold nameForCode
  simp only [List.zip_cons_cons, List.zip_nil_right, List.lookup_cons, List.lookup_nil,
    beq_eq_decide, h0, h1, h2]
  split_ifs <;> simp [*]

/-- The name of the mode of a code is found under the text of the code. -/
theorem name_modeOfCode {μ : Type} (name : μ → String) (zero one two : μ) (other : UnknownCode → μ)
    (hother : ∀ u, name (other u) = "unknown") (c : Int32) :
    name (modeOfCode zero one two other c) =
      nameForCode [name zero, name one, name two] (int32 c) := by
  rw [apply_modeOfCode name (fun _ => "unknown") hother, nameForCode_int32]

theorem Ipv4Mode.name_eq (m : Ipv4Mode) :
    m.name = nameForCode ["disabled", "static", "dhcp"] (int32 m.code) :=
  calc m.name = (Mode.ofCode (Mode.code m) : Ipv4Mode).name := by rw [LawfulMode.ofCode_code]
    _ = _ := name_modeOfCode name disabled static dhcp unknown (fun _ => rfl) m.code

theorem Ipv6Mode.name_eq (m : Ipv6Mode) :
    m.name = nameForCode ["disabled", "slaac", "link-local"] (int32 m.code) :=
  calc m.name = (Mode.ofCode (Mode.code m) : Ipv6Mode).name := by rw [LawfulMode.ofCode_code]
    _ = _ := name_modeOfCode name disabled slaac linkLocal unknown (fun _ => rfl) m.code

/-- A host name is sent under code 1, although the setting not to do so comes first. -/
theorem HostnameSetting.name_eq (h : HostnameSetting) :
    h.name = nameForCode ["unset", "send", "do-not-send"] (int32 h.code) :=
  calc h.name = (Mode.ofCode (Mode.code h) : HostnameSetting).name := by
        rw [LawfulMode.ofCode_code]
    _ = _ := name_modeOfCode name unset send doNotSend unknown (fun _ => rfl) h.code

/-! ### Entries -/

/-- The labels of the codes in a parcel, each with the names of the codes 0, 1 and 2. -/
def namesOfCodes : List (String × List String) := [
  ("ipv4ProvisioningMode", ["disabled", "static", "dhcp"]),
  ("ipv6ProvisioningMode", ["disabled", "slaac", "link-local"]),
  ("hostnameSetting", ["unset", "send", "do-not-send"])]

/-- The entry of a configuration in the place of an entry of its parcel, if there is one. -/
def entryOfParcel (e : String × String) : Option (String × String) :=
  if e.1 = "enableIPv4" ∨ e.1 = "enableIPv6" then none
  else if e.1 = "options" then some ("dhcpOptions", e.2)
  else
    match namesOfCodes.lookup e.1 with
    | some names => some (e.1, nameForCode names e.2)
    | none => some e

theorem entries_eq_filterMap (c : Configuration) :
    c.entries = c.toParcel.entries.filterMap entryOfParcel := by
  unfold Configuration.entries
  rw [c.ipv4Mode.name_eq, c.ipv6Mode.name_eq, c.hostname.name_eq]
  -- The labels decide what becomes of each entry, and the values are those that the parcel has.
  rfl

/-- The text of a configuration is that of its parcel, under another title: the flags are left out,
the options are relabelled and the codes replaced by names, and no other entry changes. No label
stands for more than one entry. -/
theorem toString_eq_of_parcel (c : Configuration) :
    toString c.toParcel = record "ProvisioningConfigurationParcelable" c.toParcel.entries ∧
      toString c = record "ProvisioningConfiguration"
        (c.toParcel.entries.filterMap entryOfParcel) ∧
      (c.toParcel.entries.map Prod.fst).Nodup := by
  refine ⟨rfl, ?_, ?_⟩
  · rw [← entries_eq_filterMap]
    rfl
  · simp [Parcel.entries]

-- A name looks like entries of its own; only the labels count.
example : [("enableIPv4", "true"), ("displayName", "\x7d, hostnameSetting: 1"),
      ("hostnameSetting", "7")].filterMap entryOfParcel =
    [("displayName", "\x7d, hostnameSetting: 1"), ("hostnameSetting", "unknown")] := by
  decide

end Provisioning
