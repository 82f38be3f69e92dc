import Mathlib.Tactic.TFAE
import Provisioning.Proofs.Configuration.Schema
import Provisioning.Proofs.Hop

/-! # Which configurations are told apart

    A configuration is had back from its parcel at the version of the library, and a parcel from
    its JSON text. So neither the stable form nor its text takes two configurations for one: they
    tell apart what the comparison of configurations tells apart, and that is every difference in
    any of the members.
-/

namespace Provisioning

/-- The text of a parcel is that of no other parcel. -/
theorem Parcel.toJson_injective : Function.Injective toJson := by
  have hback : ∀ p : Parcel, ofJson p.toJson = .ok p := Codec.ofStableText_toJson schema.codec 5
  exact Codec.injective_of_read_write hback

namespace Configuration

/-- The parcel of a configuration is that of no other configuration, unknown modes included. -/
theorem toParcel_injective : Function.Injective toParcel := by
  intro a b h
  have hcarries : WireContract.standard.carriesModes currentInterfaceVersion = true := by decide
  have hback := fun c : Configuration =>
    c.toConfiguration_toParcel currentInterfaceVersion .standard
  simp only [hcarries, if_true] at hback
  calc a = a.toParcel.toConfiguration currentInterfaceVersion .standard := (hback a).symm
    _ = b.toParcel.toConfiguration currentInterfaceVersion .standard := by rw [h]
    _ = b := hback b

/-- A member that is set to another value makes another configuration. -/
theorem set_ne {f : Field Configuration} (hf : f ∈ schema.fields) {a : Configuration}
    {x : f.Value} (hx : x ≠ f.get a) : f.set a x ≠ a := by
  have hlawful : schema.Lawful 4 := inferInstance
  intro heq
  have hget := hlawful.get_set f hf a x
  rw [heq] at hget
  exact hx hget.symm

/-- The comparison, the members, the stable form and the wire text distinguish the same
configurations; and any one member with another value is a difference for all of them. -/
theorem comparison_agrees_with_stable_form (a b : Configuration) :
    [(a == b) = true,
      a.usesMultinetworkPolicyTracker = b.usesMultinetworkPolicyTracker ∧
        a.usesReachabilityMonitor = b.usesReachabilityMonitor ∧
        a.preDhcpActionMs = b.preDhcpActionMs ∧
        a.initial? = b.initial? ∧
        a.staticIp? = b.staticIp? ∧
        a.apf? = b.apf? ∧
        a.provisioningTimeoutMs = b.provisioningTimeoutMs ∧
        a.ipv6AddressGeneration = b.ipv6AddressGeneration ∧
        a.network? = b.network? ∧
        a.displayName? = b.displayName? ∧
        a.preconnects = b.preconnects ∧
        a.scanResult? = b.scanResult? ∧
        a.layer2? = b.layer2? ∧
        a.dhcpOptions? = b.dhcpOptions? ∧
        a.ipv4Mode = b.ipv4Mode ∧
        a.ipv6Mode = b.ipv6Mode ∧
        a.onlyUniqueEui64Addresses = b.onlyUniqueEui64Addresses ∧
        a.creatorUid = b.creatorUid ∧
        a.hostname = b.hostname,
      a.toParcel = b.toParcel,
      a.toParcel.toJson = b.toParcel.toJson].TFAE ∧
    ∀ f ∈ schema.fields, ∀ x : f.Value, x ≠ f.get a →
      (f.set a x == a) = false ∧
        (f.set a x).toParcel ≠ a.toParcel ∧
        (f.set a x).toParcel.toJson ≠ a.toParcel.toJson := by
  refine ⟨?_, ?_⟩
  · tfae_have 1 → 3 := by
      intro h
      rw [eq_of_beq h]
    tfae_have 3 → 4 := by
      intro h
      rw [h]
    tfae_have 4 → 2 := by
      intro h
      obtain rfl := toParcel_injective (Parcel.toJson_injective h)
      simp only [and_self]
    tfae_have 2 → 1 := by
      intro h
      show a.beq b = true
      simpa [Configuration.beq, and_assoc] using h
    tfae_finish
  · intro f hf x hx
    have hne := set_ne hf hx
    have hparcel : (f.set a x).toParcel ≠ a.toParcel := toParcel_injective.ne hne
    exact ⟨beq_eq_false_iff_ne.mpr hne, hparcel, Parcel.toJson_injective.ne hparcel⟩

/-- No options at all and an empty list of options. -/
theorem comparison_agrees_with_stable_form_emptyOptions :
    let c : Configuration := { empty with dhcpOptions? := some [] }
    some [] ≠ empty.dhcpOptions? ∧ (c == empty) = false ∧ c.toParcel ≠ empty.toParcel ∧
      c.toParcel.toJson ≠ empty.toParcel.toJson := by
  intro c
  have hne : some [] ≠ empty.dhcpOptions? := by decide
  have hmember : schema.fields[13] ∈ schema.fields := List.getElem_mem (by decide)
  exact ⟨hne, (comparison_agrees_with_stable_form empty empty).2 _ hmember (some []) hne⟩

end Configuration

end Provisioning
