import Provisioning.Hop
import Provisioning.Proofs.Address.Length

/-! # Rules in bytes

    The rules of an initial configuration ask many prefixes about many addresses, of either
    family. Here they are checked with lengths as bytes, in the order of the library, `none` being
    a difference below zero. That the two agree says that there is none.
-/

namespace Provisioning

/-! ### The rules -/

namespace InitialConfiguration

/-- Whether one of the routes holds an address; the routes behind it are not asked. -/
def isDirectlyConnected? (c : InitialConfiguration) (a : IpAddress) : Option Bool :=
  c.routes.anyM fun r => r.slashed.contains? a

/-- Whether every rule is kept. -/
def validate? (c : InitialConfiguration) : Option (Except InitialConfigurationError Unit) :=
  if c.addresses.isEmpty then some (.error .noAddress)
  else
    match c.routes.find? IpPrefix.isIpv6DefaultRoute with
    | some route => some (.error (.ipv6DefaultRoute route))
    | none => do
      match ← c.addresses.findM? fun a => (c.isDirectlyConnected? a.address).map not with
      | some a => return .error (.unreachableAddress a)
      | none =>
        match ← c.dnsServers.findM? fun d => (c.isDirectlyConnected? d).map not with
        | some d => return .error (.unreachableServer d)
        | none =>
          match c.addresses.find? fun a =>
              a.address.isIpv6 && a.length != autoconfigurationLength with
          | some a => return .error (.wrongIpv6Length a)
          | none =>
            if 1 < (c.addresses.filter fun a => a.address.isIpv4).length then
              return .error .severalIpv4Addresses
            else return .ok ()

theorem isDirectlyConnected?_eq (c : InitialConfiguration) (a : IpAddress) :
    c.isDirectlyConnected? a = some (c.isDirectlyConnected a) := by
  have hask : (fun r : IpPrefix => r.slashed.contains? a) = fun r => pure (r.contains a) :=
    funext fun r => Slashed.contains?_slashed r a
  unfold isDirectlyConnected? isDirectlyConnected
  rw [hask, List.anyM_pure]
  rfl

/-- The rules are decided as the library decides them, and no difference is below zero. -/
theorem validate?_eq (c : InitialConfiguration) : c.validate? = some c.validate := by
  have haddresses : (fun a : LinkAddress => (c.isDirectlyConnected? a.address).map not) =
      fun a => pure (!c.isDirectlyConnected a.address) :=
    funext fun a => by rw [isDirectlyConnected?_eq]; rfl
  have hservers : (fun d => (c.isDirectlyConnected? d).map not) =
      fun d => pure (!c.isDirectlyConnected d) :=
    funext fun d => by rw [isDirectlyConnected?_eq]; rfl
  unfold validate? validate firstError?
  rw [haddresses, hservers, List.findM?_pure, List.findM?_pure]
  simp only [pure_bind]
  -- The same questions are asked on both sides, one after the other.
  by_cases hempty : c.addresses.isEmpty = true
  · simp only [hempty, if_true]
  · simp only [hempty, Bool.false_eq_true, if_false]
    cases c.routes.find? IpPrefix.isIpv6DefaultRoute with
    | some route => rfl
    | none =>
      cases c.addresses.find? fun a => !c.isDirectlyConnected a.address with
      | some a => rfl
      | none =>
        cases c.dnsServers.find? fun d => !c.isDirectlyConnected d with
        | some d => rfl
        | none =>
          cases c.addresses.find? fun a =>
              a.address.isIpv6 && a.length != autoconfigurationLength with
          | some a => rfl
          | none =>
            by_cases hseveral : 1 < (c.addresses.filter fun a => a.address.isIpv4).length
            · simp only [hseveral, if_true]
              rfl
            · simp only [hseveral, if_false]
              rfl

end InitialConfiguration

/-! ### Where lengths occur -/

/-- The link addresses of a configuration. -/
def Configuration.linkAddresses (c : Configuration) : List LinkAddress :=
  (c.initial?.map InitialConfiguration.addresses).getD [] ++
    (c.staticIp?.bind StaticIpConfiguration.address?).toList

/-- The prefixes of a configuration. -/
def Configuration.prefixes (c : Configuration) : List IpPrefix :=
  (c.initial?.map InitialConfiguration.routes).getD []

/-- The link addresses of a parcel. -/
def Parcel.linkAddresses (p : Parcel) : List LinkAddress :=
  (p.initial?.map InitialParcel.addresses).getD [] ++
    (p.staticIp?.bind StaticIpConfiguration.address?).toList

/-- The prefixes of a parcel. -/
def Parcel.prefixes (p : Parcel) : List IpPrefix :=
  (p.initial?.map InitialParcel.routes).getD []

/-! ### What can exist -/

/-- The greatest length of a prefix of a family. -/
def IpAddress.greatestLength (a : IpAddress) : Nat :=
  if a.isIpv4 then 32 else 128

theorem IpAddress.greatestLength_eq (a : IpAddress) : a.greatestLength = a.width := by
  cases a <;> rfl

namespace Slashed

theorem IsLinkAddress.length_le {s : Slashed} (h : s.IsLinkAddress) :
    s.length.toNat ≤ s.address.greatestLength := by
  obtain ⟨a, rfl⟩ := (isLinkAddress_iff s).mp h
  rw [IpAddress.greatestLength_eq]
  show (UInt8.ofNat a.length).toNat ≤ a.address.width
  rw [toNat_ofNat_of_le_width a.length_le]
  exact a.length_le

/-- What is known of everything that can be made or read as a prefix. -/
structure WellFormedPrefix (s : Slashed) : Prop where
  length_le : s.length.toNat ≤ s.address.greatestLength
  hostBits : ∀ i, s.length.toNat ≤ i → s.address.leadingBit i = false
  makeAgain : makePrefix? s.address s.length = some (.ok s)
  containsOwn : s.contains? s.address = some true
  answers : ∀ a, (s.contains? a).isSome

theorem IsPrefix.wellFormed {s : Slashed} (h : s.IsPrefix) : s.WellFormedPrefix := by
  obtain ⟨p, rfl⟩ := (isPrefix_iff s).mp h
  have hlength : p.slashed.length.toNat = p.length := toNat_ofNat_of_le_width p.length_le
  refine ⟨?_, ?_, makePrefix?_slashed p, ?_, ?_⟩
  · rw [IpAddress.greatestLength_eq, hlength]
    exact p.length_le
  · intro i hi
    rw [hlength] at hi
    exact IpAddress.leadingBit_of_mask_eq p.length_le p.masked hi
  · rw [contains?_slashed]
    simp [IpPrefix.contains, IpPrefix.slashed, p.masked]
  · intro a
    rw [contains?_slashed]
    rfl

/-- Whatever can be made or read is well formed: a length is in the range of its address, and of
a prefix the host bits are clear, so that it is made again of its own parts and holds its own
address. All that configurations and parcels hold, decoded from whichever text and taken through
any number of hops, are such values. Nowhere is a difference of lengths below zero: not in making
or reading a prefix, not in asking one about an address of either family, not in the rules. -/
theorem values_wellFormed :
    (∀ s : Slashed, s.IsLinkAddress → s.length.toNat ≤ s.address.greatestLength) ∧
      (∀ s : Slashed, s.IsPrefix → s.WellFormedPrefix) ∧
      (∀ c : Configuration, (∀ a ∈ c.linkAddresses, a.slashed.IsLinkAddress) ∧
        ∀ p ∈ c.prefixes, p.slashed.IsPrefix) ∧
      (∀ p : Parcel, (∀ a ∈ p.linkAddresses, a.slashed.IsLinkAddress) ∧
        ∀ r ∈ p.prefixes, r.slashed.IsPrefix) ∧
      (∀ address length, makePrefix? address length =
        some ((IpPrefix.make address length.toNat).map IpPrefix.slashed)) ∧
      (∀ text, readPrefix? text = some ((IpPrefix.ofString text).map IpPrefix.slashed)) ∧
      (∀ (p : IpPrefix) a, p.slashed.contains? a = some (p.contains a)) ∧
      ∀ c : InitialConfiguration, c.validate? = some c.validate := by
  have hlink : ∀ a : LinkAddress, a.slashed.IsLinkAddress := fun a =>
    (isLinkAddress_iff _).mpr ⟨a, rfl⟩
  have hprefix : ∀ p : IpPrefix, p.slashed.IsPrefix := fun p => (isPrefix_iff _).mpr ⟨p, rfl⟩
  refine ⟨fun s h => h.length_le, fun s h => h.wellFormed, ?_, ?_, makePrefix?_eq,
    readPrefix?_eq, contains?_slashed, InitialConfiguration.validate?_eq⟩
  · intro c
    exact ⟨fun a _ => hlink a, fun p _ => hprefix p⟩
  · intro p
    exact ⟨fun a _ => hlink a, fun r _ => hprefix r⟩

/-- An IPv6 prefix that is asked about an IPv4 address, for which its length is too great. -/
theorem values_wellFormed_otherFamily :
    let s : Slashed := ⟨.v6 0x20010db8000000000000000000000000, 64⟩
    s.IsPrefix ∧ s.WellFormedPrefix ∧ s.contains? (.v4 0xc0000201) = some false ∧
      (IpAddress.v4 0xc0000201).mask? s.length = none := by
  intro s
  have hmask : s.address.mask? s.length = some s.address := by decide
  have hcheck : check s.address s.length = .ok () := by
    rw [check_eq, if_pos (by decide)]
  have hmake : makePrefix? s.address s.length = some (.ok s) := by
    unfold makePrefix?
    simp only [hcheck, hmask, Option.map_some]
  exact ⟨.made hmake, values_wellFormed.2.1 s (.made hmake), by decide, by decide⟩

end Slashed

end Provisioning
