import Provisioning.Hop
import Provisioning.Proofs.Json.Source
import Provisioning.Proofs.Parcel.Schema

/-! # Chains of hops

    A hop either carries the modes or derives them from the flags. In the first case nothing is
    lost; in the second each mode becomes the one that its flag stands for, and such a mode is
    stable under hops of both kinds. So a chain of hops does no more to a configuration than its
    first hop that does not carry the modes. Read from the other side, a parcel that was taken
    out and put in again has codes and flags that agree, whatever it was before.
-/

namespace Provisioning

/-! ### Parts -/

@[simp] theorem InitialConfiguration.ofParcel_toParcel (c : InitialConfiguration) :
    ofParcel c.toParcel = c := rfl

@[simp] theorem InitialConfiguration.toParcel_ofParcel (p : InitialParcel) :
    (ofParcel p).toParcel = p := rfl

@[simp] theorem Layer2Information.ofParcel_toParcel (i : Layer2Information) :
    ofParcel i.toParcel = i := rfl

@[simp] theorem Layer2Information.toParcel_ofParcel (p : Layer2Parcel) :
    (ofParcel p).toParcel = p := rfl

@[simp] theorem InformationElement.ofParcel_toParcel (e : InformationElement) :
    ofParcel e.toParcel = e := rfl

@[simp] theorem InformationElement.toParcel_ofParcel (p : InformationElementParcel) :
    (ofParcel p).toParcel = p := rfl

@[simp] theorem ScanResult.ofParcel_toParcel (r : ScanResult) : ofParcel r.toParcel = r := by
  have hparts : InformationElement.ofParcel ∘ InformationElement.toParcel = id :=
    funext InformationElement.ofParcel_toParcel
  unfold ofParcel toParcel
  rw [List.map_map, hparts, List.map_id]

@[simp] theorem ScanResult.toParcel_ofParcel (p : ScanResultParcel) :
    (ofParcel p).toParcel = p := by
  have hparts : InformationElement.toParcel ∘ InformationElement.ofParcel = id :=
    funext InformationElement.toParcel_ofParcel
  unfold toParcel ofParcel
  rw [List.map_map, hparts, List.map_id]

/-- A part that is taken through a form which has it back stays the same, also if it is absent. -/
theorem map_map_eq_self {α β : Type} {into : α → β} {back : β → α} (h : ∀ x, back (into x) = x)
    (x? : Option α) : (x?.map into).map back = x? := by
  cases x? with
  | none => rfl
  | some x => exact congrArg some (h x)

/-! ### Modes -/

/-- The mode that a family has behind a hop that does not carry modes. -/
def Ipv4Mode.legacy : Ipv4Mode → Ipv4Mode
  | static | dhcp => dhcp
  | disabled | unknown _ => disabled

/-- The mode that a family has behind a hop that does not carry modes. -/
def Ipv6Mode.legacy : Ipv6Mode → Ipv6Mode
  | slaac | linkLocal => slaac
  | disabled | unknown _ => disabled

theorem Ipv4Mode.legacy_legacy (m : Ipv4Mode) : m.legacy.legacy = m.legacy := by
  cases m <;> rfl

theorem Ipv6Mode.legacy_legacy (m : Ipv6Mode) : m.legacy.legacy = m.legacy := by
  cases m <;> rfl

theorem Ipv4Mode.legacy_eq (m : Ipv4Mode) :
    m.legacy = if m.isEnabled then dhcp else disabled := by
  cases m <;> rfl

theorem Ipv6Mode.legacy_eq (m : Ipv6Mode) :
    m.legacy = if m.isEnabled then slaac else disabled := by
  cases m <;> rfl

/-- The mode of a code is enabled for the codes 1 and 2. -/
theorem isEnabled_modeOfCode {μ : Type} {zero one two : μ} {other : UnknownCode → μ}
    {isEnabled : μ → Bool} (h0 : isEnabled zero = false) (h1 : isEnabled one = true)
    (h2 : isEnabled two = true) (hother : ∀ c, isEnabled (other c) = false) (c : Int32) :
    isEnabled (modeOfCode zero one two other c) = decide (c = 1 ∨ c = 2) := by
  rw [apply_modeOfCode isEnabled (fun _ => false) hother, h0, h1, h2]
  grind

theorem Ipv4Mode.isEnabled_ofCode (c : Int32) :
    (Mode.ofCode c : Ipv4Mode).isEnabled = decide (c = 1 ∨ c = 2) :=
  isEnabled_modeOfCode rfl rfl rfl (fun _ => rfl) c

theorem Ipv6Mode.isEnabled_ofCode (c : Int32) :
    (Mode.ofCode c : Ipv6Mode).isEnabled = decide (c = 1 ∨ c = 2) :=
  isEnabled_modeOfCode rfl rfl rfl (fun _ => rfl) c

/-- A mode is taken from its code where modes are carried, and else from its flag. -/
theorem receiveMode_mode {μ : Type} [Mode μ] (family : String) (enabled disabled : μ)
    (code : Int32) (flag : Bool) (version : UInt32) (k : WireContract) :
    (receiveMode family enabled disabled code flag version k).mode =
      if k.carriesModes version then Mode.ofCode code
      else if flag then enabled else disabled := by
  unfold receiveMode
  by_cases hcarries : k.carriesModes version = true
  · rw [if_pos hcarries, if_pos hcarries]
    cases hunknown : Mode.unknownCode? (Mode.ofCode code : μ) <;> simp only [hunknown]
  · rw [if_neg hcarries, if_neg hcarries]

/-! ### One hop of a configuration -/

namespace Configuration

/-- The configuration behind a hop that does not carry the modes. -/
def legacy (c : Configuration) : Configuration :=
  { c with ipv4Mode := c.ipv4Mode.legacy, ipv6Mode := c.ipv6Mode.legacy }

theorem legacy_legacy (c : Configuration) : c.legacy.legacy = c.legacy := by
  unfold legacy
  simp only [Ipv4Mode.legacy_legacy, Ipv6Mode.legacy_legacy]

/-- Out of its own parcel a configuration comes as it is where modes are carried, and with the
modes of its flags elsewhere. -/
theorem toConfiguration_toParcel (c : Configuration) (version : UInt32) (k : WireContract) :
    c.toParcel.toConfiguration version k = if k.carriesModes version then c else c.legacy := by
  have hinitial := map_map_eq_self InitialConfiguration.ofParcel_toParcel c.initial?
  have hscan := map_map_eq_self ScanResult.ofParcel_toParcel c.scanResult?
  have hlayer2 := map_map_eq_self Layer2Information.ofParcel_toParcel c.layer2?
  have hhostname : (Mode.ofCode c.hostname.code : HostnameSetting) = c.hostname :=
    LawfulMode.ofCode_code c.hostname
  have hipv4 : (Mode.ofCode c.ipv4Mode.code : Ipv4Mode) = c.ipv4Mode :=
    LawfulMode.ofCode_code c.ipv4Mode
  have hipv6 : (Mode.ofCode c.ipv6Mode.code : Ipv6Mode) = c.ipv6Mode :=
    LawfulMode.ofCode_code c.ipv6Mode
  unfold Parcel.toConfiguration Parcel.receiveIpv4Mode Parcel.receiveIpv6Mode
  simp only [receiveMode_mode]
  unfold toParcel
  simp only [hinitial, hscan, hlayer2, hhostname]
  -- The two sides differ in the modes only; either the codes decide on them or the flags.
  by_cases hcarries : k.carriesModes version = true
  · simp only [if_pos hcarries, hipv4, hipv6]
  · simp only [if_neg hcarries, legacy, Ipv4Mode.legacy_eq, Ipv6Mode.legacy_eq]

end Configuration

/-! ### Chains of hops -/

/-- A hop: the interface version that the sender is said to have, and the contract of the
receiver. -/
structure Hop where
  version : UInt32
  contract : WireContract

namespace Hop

/-- Takes a configuration into a parcel, the parcel through JSON text, and the configuration out
of what was read. -/
def cross (h : Hop) (c : Configuration) : Except Failure Configuration := do
  let p ← Parcel.ofJson c.toParcel.toJson
  return p.toConfiguration h.version h.contract

/-- One hop after the other. -/
def travel : List Hop → Configuration → Except Failure Configuration
  | [], c => .ok c
  | h :: hops, c => do
    let c ← h.cross c
    travel hops c

/-- A hop succeeds; it changes nothing or derives the modes. -/
theorem cross_eq (h : Hop) (c : Configuration) :
    h.cross c = .ok (if h.contract.carriesModes h.version then c else c.legacy) := by
  have hread : Parcel.ofJson c.toParcel.toJson = .ok c.toParcel :=
    Codec.ofStableText_toJson Parcel.schema.codec 5 c.toParcel
  unfold cross
  rw [hread, ← c.toConfiguration_toParcel]
  rfl

/-- A chain of hops succeeds for every configuration. It changes nothing if all its hops carry
the modes, and else it does what a single hop without them does. -/
theorem travel_eq (hops : List Hop) (c : Configuration) :
    travel hops c =
      .ok (if ∀ h ∈ hops, h.contract.modesSince ≤ h.version then c else c.legacy) := by
  induction hops generalizing c with
  | nil => rfl
  | cons h hops ih =>
    have hstep : travel (h :: hops) c =
        travel hops (if h.contract.carriesModes h.version then c else c.legacy) := by
      rw [travel, cross_eq]
      rfl
    rw [hstep, ih]
    simp only [WireContract.carriesModes, decide_eq_true_eq, List.forall_mem_cons]
    by_cases hfirst : h.contract.modesSince ≤ h.version
    · simp only [hfirst, if_true, true_and]
    · -- Behind the first hop without modes every further hop finds the modes as they stay.
      simp only [hfirst, if_false, false_and, Configuration.legacy_legacy, ite_self]

end Hop

/-! ### One hop of a parcel -/

namespace Parcel

/-- The parcel that a receiver makes of the configuration that it took out of a parcel. -/
def relay (p : Parcel) (version : UInt32) (k : WireContract) : Parcel :=
  (p.toConfiguration version k).toParcel

/-- The parcel with the flags that go with its codes. -/
def withFlagsOfCodes (p : Parcel) : Parcel :=
  { p with
    enablesIpv4 := decide (p.ipv4ModeCode = 1 ∨ p.ipv4ModeCode = 2)
    enablesIpv6 := decide (p.ipv6ModeCode = 1 ∨ p.ipv6ModeCode = 2) }

/-- The parcel with the codes that its flags stand for: of DHCP and of SLAAC, or of no mode. -/
def withCodesOfFlags (p : Parcel) : Parcel :=
  { p with
    ipv4ModeCode := if p.enablesIpv4 then 2 else 0
    ipv6ModeCode := if p.enablesIpv6 then 1 else 0 }

/-- Where modes are carried only the flags of a parcel change, and elsewhere only its codes. -/
theorem relay_eq (p : Parcel) (version : UInt32) (k : WireContract) :
    p.relay version k =
      if k.carriesModes version then p.withFlagsOfCodes else p.withCodesOfFlags := by
  have hinitial := map_map_eq_self InitialConfiguration.toParcel_ofParcel p.initial?
  have hscan := map_map_eq_self ScanResult.toParcel_ofParcel p.scanResult?
  have hlayer2 := map_map_eq_self Layer2Information.toParcel_ofParcel p.layer2?
  have hhostname : (Mode.ofCode p.hostnameCode : HostnameSetting).code = p.hostnameCode :=
    @LawfulMode.code_ofCode HostnameSetting _ _ p.hostnameCode
  have hipv4 : (Mode.ofCode p.ipv4ModeCode : Ipv4Mode).code = p.ipv4ModeCode :=
    @LawfulMode.code_ofCode Ipv4Mode _ _ p.ipv4ModeCode
  have hipv6 : (Mode.ofCode p.ipv6ModeCode : Ipv6Mode).code = p.ipv6ModeCode :=
    @LawfulMode.code_ofCode Ipv6Mode _ _ p.ipv6ModeCode
  unfold relay Configuration.toParcel toConfiguration receiveIpv4Mode receiveIpv6Mode
  simp only [receiveMode_mode, hinitial, hscan, hlayer2, hhostname]
  by_cases hcarries : k.carriesModes version = true
  · simp only [if_pos hcarries, hipv4, hipv6, Ipv4Mode.isEnabled_ofCode,
      Ipv6Mode.isEnabled_ofCode, withFlagsOfCodes]
  · simp only [if_neg hcarries, withCodesOfFlags]
    cases p.enablesIpv4 <;> cases p.enablesIpv6 <;> rfl

theorem withFlagsOfCodes_withFlagsOfCodes (p : Parcel) :
    p.withFlagsOfCodes.withFlagsOfCodes = p.withFlagsOfCodes := rfl

theorem withCodesOfFlags_withCodesOfFlags (p : Parcel) :
    p.withCodesOfFlags.withCodesOfFlags = p.withCodesOfFlags := rfl

/-- The codes of flags have the flags back. -/
theorem withFlagsOfCodes_withCodesOfFlags (p : Parcel) :
    p.withCodesOfFlags.withFlagsOfCodes = p.withCodesOfFlags := by
  unfold withFlagsOfCodes withCodesOfFlags
  cases p.enablesIpv4 <;> cases p.enablesIpv6 <;> rfl

variable {version : UInt32} {k : WireContract}

/-- Where modes are carried the flags do not count. -/
theorem toConfiguration_of_carriesModes (hcarries : k.carriesModes version = true) (p : Parcel)
    (ipv4 ipv6 : Bool) :
    toConfiguration { p with enablesIpv4 := ipv4, enablesIpv6 := ipv6 } version k =
      p.toConfiguration version k := by
  unfold toConfiguration receiveIpv4Mode receiveIpv6Mode
  simp only [receiveMode_mode, if_pos hcarries]

/-- Where modes are not carried the codes do not count. -/
theorem toConfiguration_of_not_carriesModes (hcarries : ¬ k.carriesModes version = true)
    (p : Parcel) (ipv4 ipv6 : Int32) :
    toConfiguration { p with ipv4ModeCode := ipv4, ipv6ModeCode := ipv6 } version k =
      p.toConfiguration version k := by
  unfold toConfiguration receiveIpv4Mode receiveIpv6Mode
  simp only [receiveMode_mode, if_neg hcarries]

/-- A parcel is normal when its codes and flags agree, and hops that carry the modes leave it;
one with the codes of its flags is left by all. -/
theorem relay_relay (p : Parcel) (version' : UInt32) (k' : WireContract)
    (h : k'.modesSince ≤ version' ∨ version < k.modesSince) :
    (p.relay version k).relay version' k' = p.relay version k := by
  rw [relay_eq (p.relay version k), relay_eq p]
  by_cases hcarries : k.carriesModes version = true
  · -- The first hop carries the modes, so the second one has to carry them as well.
    have hcarries' : k'.carriesModes version' = true := by
      rcases h with h | h
      · simpa [WireContract.carriesModes] using h
      · have hle : k.modesSince ≤ version := by simpa [WireContract.carriesModes] using hcarries
        exact absurd h (UInt32.not_lt.mpr hle)
    rw [if_pos hcarries, if_pos hcarries', withFlagsOfCodes_withFlagsOfCodes]
  · rw [if_neg hcarries, withFlagsOfCodes_withCodesOfFlags, withCodesOfFlags_withCodesOfFlags,
      ite_self]

/-- Taking a parcel out and putting it in again is an exact normaliser of all parcels. Where modes
are carried it sets the flags by the codes, and elsewhere the codes by the flags. The result is
left as it is by every hop that carries the modes, and by all hops if it comes from one that does
not. What is set does not count in taking the parcel out. -/
theorem relay_normalises (p : Parcel) (version : UInt32) (k : WireContract) :
    p.relay version k =
        (if k.modesSince ≤ version then p.withFlagsOfCodes else p.withCodesOfFlags) ∧
      (∀ (version' : UInt32) (k' : WireContract),
        k'.modesSince ≤ version' ∨ version < k.modesSince →
        (p.relay version k).relay version' k' = p.relay version k) ∧
      (k.modesSince ≤ version → ∀ ipv4 ipv6 : Bool,
        toConfiguration { p with enablesIpv4 := ipv4, enablesIpv6 := ipv6 } version k =
          p.toConfiguration version k) ∧
      (version < k.modesSince → ∀ ipv4 ipv6 : Int32,
        toConfiguration { p with ipv4ModeCode := ipv4, ipv6ModeCode := ipv6 } version k =
          p.toConfiguration version k) := by
  refine ⟨?_, ?_, ?_, ?_⟩
  · simpa [WireContract.carriesModes] using p.relay_eq version k
  · exact p.relay_relay
  · intro hle
    refine toConfiguration_of_carriesModes ?_ p
    simpa [WireContract.carriesModes] using hle
  · intro hlt
    refine toConfiguration_of_not_carriesModes ?_ p
    simpa [WireContract.carriesModes] using hlt

/-- A parcel whose codes and flags contradict each other, at both sides of the contract. -/
theorem relay_normalises_contradictory :
    let p : Parcel := { empty with enablesIpv4 := true, ipv6ModeCode := 2 }
    (12 : UInt32) ≤ 12 ∧ (11 : UInt32) < 12 ∧
      p.relay 12 .standard = { empty with enablesIpv6 := true, ipv6ModeCode := 2 } ∧
      p.relay 11 .standard = { empty with enablesIpv4 := true, ipv4ModeCode := 2 } ∧
      (p.relay 11 .standard).relay 3 .standard = p.relay 11 .standard := by
  intro p
  have hnew := p.relay_normalises 12 .standard
  have hold := p.relay_normalises 11 .standard
  refine ⟨by decide, by decide, ?_, ?_, ?_⟩
  · rw [hnew.1]
    decide
  · rw [hold.1]
    decide
  · exact hold.2.1 3 .standard (.inr (by decide))

end Parcel

end Provisioning
