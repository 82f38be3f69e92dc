import Provisioning.Proofs.Address.Slash
import Provisioning.Proofs.Hop
import Provisioning.Proofs.Numeral

/-! # What is logged of a hop

    A receiver logs what it makes of the two modes of a parcel: of a mode that it derives from a
    flag that it does so, and of a mode of unknown code that it carries it on. Of all else it logs
    nothing, so the log of a receipt can be said from what comes out of it, and what was done to the
    modes can be read off the log. Along a chain of hops nothing is lost without a record.

    Main statement: `receipts_tell`.
-/

namespace Provisioning

open Numeral (decimal signedDecimal decimal_injective signedDecimal_injective)

/-! ### Records -/

namespace LogRecord

theorem toList_toString_version (version : UInt32) :
    (toString version).toList = decimal version.toNat :=
  String.toList_ofList

/-- A warning, word by word. -/
theorem toList_unknownMode (family : String) (u : UnknownCode) (version : UInt32) :
    (unknownMode family u version).message.toList =
      "Carrying unknown ".toList ++ (family.toList ++ (" provisioning mode ".toList ++
        (signedDecimal u.value.toInt ++
          ' ' :: ("from interface version ".toList ++ decimal version.toNat)))) := by
  rw [← toList_toString_version]
  simp only [unknownMode, String.toList_append, String.toList_ofList, List.append_assoc]
  -- All that is left is that a literal is its own text, and the blank behind the code.
  rfl

/-- A record about a mode that is derived, word by word. -/
theorem toList_derivedMode (family : String) (flag : Bool) (version : UInt32) :
    (derivedMode family flag version).message.toList =
      "Interface version ".toList ++ (decimal version.toNat ++
        ' ' :: ("predates explicit ".toList ++ (family.toList ++
          (" provisioning mode, ".toList ++ ("deriving from enable".toList ++ (family.toList ++
            (" ".toList ++ (toString flag).toList))))))) := by
  rw [← toList_toString_version]
  simp only [derivedMode, String.toList_append, List.append_assoc]
  rfl

/-- A number ends in front of a blank. -/
theorem signedDecimal_append_inj {i j : Int} {s t : List Char}
    (h : signedDecimal i ++ ' ' :: s = signedDecimal j ++ ' ' :: t) : i = j ∧ s = t := by
  have hblank : ∀ k, ' ' ∉ signedDecimal k := by
    intro k hk
    rcases Numeral.mem_signedDecimal hk with hdash | hdigit
    · exact absurd hdash (by decide)
    · exact absurd hdigit (by decide)
  have hsplit := splitAtChar_append (hblank i) s
  rw [h, splitAtChar_append (hblank j) t] at hsplit
  obtain ⟨hnumber, hrest⟩ := Prod.mk.inj (Option.some.inj hsplit)
  exact ⟨(signedDecimal_injective hnumber).symm, hrest.symm⟩

theorem decimal_append_inj {m n : Nat} {s t : List Char}
    (h : decimal m ++ ' ' :: s = decimal n ++ ' ' :: t) : m = n ∧ s = t := by
  obtain ⟨hnumber, hrest⟩ : (m : Int) = n ∧ s = t := signedDecimal_append_inj h
  exact ⟨Int.ofNat.inj hnumber, hrest⟩

variable {family family' : String} {u u' : UnknownCode} {flag flag' : Bool}
  {version version' : UInt32}

/-- A warning names the family, the code and the version. -/
theorem unknownMode_inj (hlength : family.toList.length = family'.toList.length)
    (h : unknownMode family u version = unknownMode family' u' version') :
    family = family' ∧ u = u' ∧ version = version' := by
  have htext := congrArg (fun r => r.message.toList) h
  simp only [toList_unknownMode, List.append_cancel_left_eq] at htext
  -- The words around are the same, the names end together and the code ends at a blank.
  obtain ⟨hfamily, hrest⟩ := List.append_inj htext hlength
  obtain ⟨hcode, hversion⟩ := signedDecimal_append_inj (List.append_cancel_left hrest)
  refine ⟨String.toList_inj.mp hfamily, ?_, ?_⟩
  · obtain ⟨value, hvalue⟩ := u
    obtain ⟨value', hvalue'⟩ := u'
    rw [UnknownCode.mk.injEq]
    exact Int32.toInt_inj.mp hcode
  · exact UInt32.toNat_inj.mp (decimal_injective (List.append_cancel_left hversion))

/-- A record about a mode that is derived names the family, the flag and the version. -/
theorem derivedMode_inj (hlength : family.toList.length = family'.toList.length)
    (h : derivedMode family flag version = derivedMode family' flag' version') :
    family = family' ∧ flag = flag' ∧ version = version' := by
  have htext := congrArg (fun r => r.message.toList) h
  simp only [toList_derivedMode, List.append_cancel_left_eq] at htext
  obtain ⟨hversion, hrest⟩ := decimal_append_inj htext
  obtain ⟨hfamily, hrest⟩ := List.append_inj (List.append_cancel_left hrest) hlength
  obtain rfl := String.toList_inj.mp hfamily
  -- The name comes once more in front of the flag.
  have hflag : toString flag = toString flag' := by
    simpa only [List.append_cancel_left_eq, String.toList_inj] using hrest
  refine ⟨rfl, ?_, UInt32.toNat_inj.mp hversion⟩
  cases flag <;> cases flag'
  · rfl
  · exact absurd hflag (by decide)
  · exact absurd hflag (by decide)
  · rfl

/-- A warning about a family, known by its level and its first words. -/
structure Warns (family : String) (r : LogRecord) : Prop where
  level : r.level = .warn
  message : ∃ rest, r.message = "Carrying unknown " ++ family ++ rest

/-- A record about a mode of unknown code is a warning. -/
theorem warns_unknownMode : (unknownMode family u version).Warns family := by
  refine ⟨rfl, String.ofList (" provisioning mode ".toList ++ (signedDecimal u.value.toInt ++
    ' ' :: ("from interface version ".toList ++ decimal version.toNat))), ?_⟩
  rw [← String.toList_inj, toList_unknownMode]
  simp only [String.toList_append, String.toList_ofList, List.append_assoc]

theorem not_warns_derivedMode : ¬ (derivedMode family flag version).Warns family' := by
  intro h
  cases h.level

theorem unknownMode_ne_derivedMode :
    unknownMode family u version ≠ derivedMode family' flag version' := by
  intro h
  -- They are of different levels, whatever their texts are.
  cases congrArg level h

theorem eq_of_warns_unknownMode (hlength : family.toList.length = family'.toList.length)
    (h : (unknownMode family u version).Warns family') : family = family' := by
  obtain ⟨rest, hmessage⟩ := h.message
  have htext := congrArg String.toList hmessage
  simp only [toList_unknownMode, String.toList_append, List.append_assoc,
    List.append_cancel_left_eq] at htext
  exact String.toList_inj.mp (List.append_inj htext hlength).1

/-- A record about the mode of a family. -/
inductive IsAbout (family : String) : LogRecord → Prop
  | unknown (u : UnknownCode) (version : UInt32) : IsAbout family (.unknownMode family u version)
  | derived (flag : Bool) (version : UInt32) : IsAbout family (.derivedMode family flag version)

section

variable {r : LogRecord} (habout : r.IsAbout family')
  (hlength : family'.toList.length = family.toList.length) (hne : family' ≠ family)

include habout hlength hne

/-- A record about another family does not warn of this one. -/
theorem IsAbout.not_warns : ¬ r.Warns family := by
  intro hwarns
  cases habout with
  | unknown u v => exact hne (eq_of_warns_unknownMode hlength hwarns)
  | derived b v => exact not_warns_derivedMode hwarns

/-- Nor does it say that the mode of this one was derived. -/
theorem IsAbout.ne_derivedMode : r ≠ derivedMode family flag version := by
  intro h
  cases habout with
  | unknown u v => exact unknownMode_ne_derivedMode h
  | derived b v => exact hne (derivedMode_inj hlength h).1

end

end LogRecord

/-! ### One family -/

/-- The warnings about a mode, which are none if its code is known. -/
def warnings (family : String) (u? : Option UnknownCode) (version : UInt32) : List LogRecord :=
  u?.toList.map fun u => .unknownMode family u version

theorem mem_warnings_iff {family : String} {u? : Option UnknownCode} {version : UInt32}
    {r : LogRecord} :
    r ∈ warnings family u? version ↔ ∃ u, u? = some u ∧ r = .unknownMode family u version := by
  simp [warnings, eq_comm]

theorem level_of_mem_warnings {family : String} {u? : Option UnknownCode} {version : UInt32}
    {r : LogRecord} (hr : r ∈ warnings family u? version) : r.level = .warn := by
  obtain ⟨u, -, rfl⟩ := mem_warnings_iff.mp hr
  rfl

section

variable {μ : Type} [Mode μ] {family : String} {enabled disabled : μ} {code : Int32} {flag : Bool}
  {version : UInt32} {k : WireContract}

/-- The log of a family follows from the mode that comes out, where modes are carried. -/
theorem receiveMode_logs :
    (receiveMode family enabled disabled code flag version k).logs =
      if k.carriesModes version then
        warnings family
          (Mode.unknownCode? (receiveMode family enabled disabled code flag version k).mode) version
      else [.derivedMode family flag version] := by
  rw [receiveMode_mode]
  unfold receiveMode
  by_cases hcarries : k.carriesModes version = true
  · simp only [if_pos hcarries]
    cases hunknown : Mode.unknownCode? (Mode.ofCode code : μ) with
    | none => rfl
    | some u => rfl
  · simp only [if_neg hcarries]

/-- Where modes are derived from flags none is unknown, so the warnings are those about the mode
that comes out in either case. -/
theorem mem_receiveMode_logs_iff (henabled : Mode.unknownCode? enabled = none)
    (hdisabled : Mode.unknownCode? disabled = none) {r : LogRecord} :
    r ∈ (receiveMode family enabled disabled code flag version k).logs ↔
      (version < k.modesSince ∧ r = .derivedMode family flag version) ∨
        r ∈ warnings family
          (Mode.unknownCode? (receiveMode family enabled disabled code flag version k).mode)
          version := by
  rw [receiveMode_logs, receiveMode_mode]
  by_cases hcarries : k.carriesModes version = true
  · have hle : ¬ version < k.modesSince := by
      simpa [WireContract.carriesModes] using hcarries
    simp [hcarries, hle]
  · have hlt : version < k.modesSince := by
      simpa [WireContract.carriesModes] using hcarries
    have hknown : Mode.unknownCode? (if flag = true then enabled else disabled) = none := by
      cases flag with
      | false => exact hdisabled
      | true => exact henabled
    simp [hcarries, hlt, hknown, warnings]

/-- Each family logs about itself. -/
theorem isAbout_of_mem_receiveMode_logs (henabled : Mode.unknownCode? enabled = none)
    (hdisabled : Mode.unknownCode? disabled = none) {r : LogRecord}
    (hr : r ∈ (receiveMode family enabled disabled code flag version k).logs) :
    r.IsAbout family := by
  rcases (mem_receiveMode_logs_iff henabled hdisabled).mp hr with ⟨-, hr⟩ | hr
  · exact hr ▸ .derived flag version
  · obtain ⟨u, -, hr⟩ := mem_warnings_iff.mp hr
    exact hr ▸ .unknown u version

end

/-! ### Both families -/

/-- A log tells what became of the mode of a family: whether it is one of unknown code, and whether
it was derived from the flag. -/
structure Tells {μ : Type} (logs : List LogRecord) (family : String) (unknown : UnknownCode → μ)
    (mode : μ) (flag : Bool) (version : UInt32) (k : WireContract) : Prop where
  warns : (∃ u, mode = unknown u) ↔ ∃ r ∈ logs, r.Warns family
  unknownMode_iff : ∀ u v, .unknownMode family u v ∈ logs ↔ mode = unknown u ∧ v = version
  derivedMode_iff : ∀ b v, .derivedMode family b v ∈ logs ↔
    version < k.modesSince ∧ b = flag ∧ v = version

section

variable {μ : Type} [Mode μ] [LawfulMode μ] {unknown : UnknownCode → μ} {mode : μ}
  {family other : String} {flag : Bool} {version : UInt32} {k : WireContract}
  {logs others : List LogRecord}

/-- What is logged of a family is told by any log that holds it beside records about another
family, as long as no name can be taken for the other. -/
theorem tells_of_mem_iff (hunknown : ∀ u, Mode.unknownCode? (unknown u) = some u)
    (hlogs : ∀ r, r ∈ logs ↔ ((version < k.modesSince ∧ r = .derivedMode family flag version) ∨
      r ∈ warnings family (Mode.unknownCode? mode) version) ∨ r ∈ others)
    (hothers : ∀ r ∈ others, r.IsAbout other)
    (hlength : other.toList.length = family.toList.length) (hne : other ≠ family) :
    Tells logs family unknown mode flag version k := by
  have hcode : ∀ u, Mode.unknownCode? mode = some u ↔ mode = unknown u :=
    fun u => Mode.unknownCode?_eq_some_iff hunknown
  have hwarns : ∀ r ∈ others, ¬ r.Warns family :=
    fun r hr => (hothers r hr).not_warns hlength hne
  constructor
  case warns =>
    constructor
    · intro h
      obtain ⟨u, hu⟩ := h
      have hmem : .unknownMode family u version ∈
          warnings family (Mode.unknownCode? mode) version :=
        mem_warnings_iff.mpr ⟨u, (hcode u).mpr hu, rfl⟩
      exact ⟨_, (hlogs _).mpr (.inl (.inr hmem)), LogRecord.warns_unknownMode⟩
    · intro h
      obtain ⟨r, hr, hwarning⟩ := h
      rcases (hlogs r).mp hr with (⟨-, rfl⟩ | hr) | hr
      · exact absurd hwarning LogRecord.not_warns_derivedMode
      · obtain ⟨u, hu, -⟩ := mem_warnings_iff.mp hr
        exact ⟨u, (hcode u).mp hu⟩
      · exact absurd hwarning (hwarns r hr)
  case unknownMode_iff =>
    intro u v
    rw [hlogs, mem_warnings_iff]
    constructor
    · intro h
      rcases h with (⟨-, hr⟩ | ⟨u', hu, hr⟩) | hr
      · exact absurd hr LogRecord.unknownMode_ne_derivedMode
      · obtain ⟨-, rfl, rfl⟩ := LogRecord.unknownMode_inj rfl hr
        exact ⟨(hcode u).mp hu, rfl⟩
      · exact absurd LogRecord.warns_unknownMode (hwarns _ hr)
    · intro h
      obtain ⟨hu, rfl⟩ := h
      exact .inl (.inr ⟨u, (hcode u).mpr hu, rfl⟩)
  case derivedMode_iff =>
    intro b v
    rw [hlogs, mem_warnings_iff]
    constructor
    · intro h
      rcases h with (⟨hlt, hr⟩ | ⟨u, -, hr⟩) | hr
      · obtain ⟨-, rfl, rfl⟩ := LogRecord.derivedMode_inj rfl hr
        exact ⟨hlt, rfl, rfl⟩
      · exact absurd hr.symm LogRecord.unknownMode_ne_derivedMode
      · exact absurd rfl ((hothers _ hr).ne_derivedMode hlength hne)
    · intro h
      obtain ⟨hlt, rfl, rfl⟩ := h
      exact .inl (.inl ⟨hlt, rfl⟩)

end

namespace Parcel

variable (p : Parcel) (version : UInt32) (k : WireContract)

/-- The log of a receipt follows from the configuration that comes out and from the flags. -/
theorem receiptLogs_eq :
    p.receiptLogs version k =
      if version < k.modesSince then
        [.derivedMode "IPv4" p.enablesIpv4 version, .derivedMode "IPv6" p.enablesIpv6 version]
      else
        warnings "IPv4" (Mode.unknownCode? (p.toConfiguration version k).ipv4Mode) version ++
          warnings "IPv6" (Mode.unknownCode? (p.toConfiguration version k).ipv6Mode) version := by
  have hcarries : k.carriesModes version = true ↔ ¬ version < k.modesSince := by
    simp [WireContract.carriesModes]
  unfold receiptLogs
  -- In a configuration there are the modes that were received along with the logs.
  show (p.receiveIpv4Mode version k).logs ++ (p.receiveIpv6Mode version k).logs =
    if version < k.modesSince then _
    else warnings "IPv4" (Mode.unknownCode? (p.receiveIpv4Mode version k).mode) version ++
      warnings "IPv6" (Mode.unknownCode? (p.receiveIpv6Mode version k).mode) version
  unfold receiveIpv4Mode receiveIpv6Mode
  rw [receiveMode_logs, receiveMode_logs]
  by_cases hlt : version < k.modesSince
  · have hnot : ¬ k.carriesModes version = true := fun h => hcarries.mp h hlt
    rw [if_pos hlt, if_neg hnot, if_neg hnot]
    rfl
  · rw [if_neg hlt, if_pos (hcarries.mpr hlt), if_pos (hcarries.mpr hlt)]

theorem tells_ipv4 :
    Tells (p.receiptLogs version k) "IPv4" .unknown (p.toConfiguration version k).ipv4Mode
      p.enablesIpv4 version k := by
  have hothers : ∀ r ∈ (p.receiveIpv6Mode version k).logs, r.IsAbout "IPv6" :=
    fun r hr => isAbout_of_mem_receiveMode_logs rfl rfl hr
  refine tells_of_mem_iff (fun _ => rfl) ?_ hothers (by decide) (by decide)
  intro r
  rw [receiptLogs, List.mem_append]
  exact or_congr_left (mem_receiveMode_logs_iff rfl rfl)

theorem tells_ipv6 :
    Tells (p.receiptLogs version k) "IPv6" .unknown (p.toConfiguration version k).ipv6Mode
      p.enablesIpv6 version k := by
  have hothers : ∀ r ∈ (p.receiveIpv4Mode version k).logs, r.IsAbout "IPv4" :=
    fun r hr => isAbout_of_mem_receiveMode_logs rfl rfl hr
  refine tells_of_mem_iff (fun _ => rfl) ?_ hothers (by decide) (by decide)
  intro r
  rw [receiptLogs, List.mem_append, or_comm]
  exact or_congr_left (mem_receiveMode_logs_iff rfl rfl)

variable {version k}

/-- What is logged of modes that are carried are warnings. -/
theorem level_of_receiptLogs (hcarries : k.carriesModes version = true) :
    ∀ r ∈ p.receiptLogs version k, r.level = .warn := by
  have hle : ¬ version < k.modesSince := by simpa [WireContract.carriesModes] using hcarries
  intro r hr
  rw [receiptLogs_eq, if_neg hle, List.mem_append] at hr
  rcases hr with hr | hr
  · exact level_of_mem_warnings hr
  · exact level_of_mem_warnings hr

/-- A receipt goes without a debug record if the modes are carried, and only then. -/
theorem receiptLogs_silent_iff :
    (∀ r ∈ p.receiptLogs version k, r.level ≠ .debug) ↔ k.modesSince ≤ version := by
  constructor
  · intro hsilent
    refine UInt32.not_lt.mp fun hlt => ?_
    rw [receiptLogs_eq, if_pos hlt] at hsilent
    exact hsilent _ List.mem_cons_self rfl
  · intro hle r hr hdebug
    have hwarn := p.level_of_receiptLogs (by simpa [WireContract.carriesModes] using hle) r hr
    rw [hdebug] at hwarn
    cases hwarn

end Parcel

/-! ### Chains -/

/-- A configuration at the end of a chain of hops, with what was logged on the way. -/
structure Journey where
  configuration : Configuration
  logs : List LogRecord

namespace Hop

/-- Takes a configuration into a parcel and out of it. -/
def receive (h : Hop) (c : Configuration) : Journey where
  configuration := c.toParcel.toConfiguration h.version h.contract
  logs := c.toParcel.receiptLogs h.version h.contract

/-- One hop after the other. -/
def journey : List Hop → Configuration → Journey
  | [], c => ⟨c, []⟩
  | h :: hops, c =>
    let first := h.receive c
    let rest := journey hops first.configuration
    ⟨rest.configuration, first.logs ++ rest.logs⟩

/-- A hop without a debug record changes nothing. -/
theorem receive_configuration {h : Hop} (hle : h.contract.modesSince ≤ h.version)
    (c : Configuration) : (h.receive c).configuration = c := by
  have hcarries : h.contract.carriesModes h.version = true := by
    simpa [WireContract.carriesModes] using hle
  exact (c.toConfiguration_toParcel h.version h.contract).trans (if_pos hcarries)

/-- A chain goes without a debug record if all its hops carry the modes, and only then. -/
theorem journey_silent_iff (hops : List Hop) (c : Configuration) :
    (∀ r ∈ (journey hops c).logs, r.level ≠ .debug) ↔
      ∀ h ∈ hops, h.contract.modesSince ≤ h.version := by
  induction hops generalizing c with
  | nil => exact ⟨nofun, nofun⟩
  | cons h hops ih =>
    -- What follows is logged of another configuration, but the hops decide for all of them.
    have hfirst : (∀ r ∈ (h.receive c).logs, r.level ≠ .debug) ↔
        h.contract.modesSince ≤ h.version := c.toParcel.receiptLogs_silent_iff
    rw [journey, List.forall_mem_append, List.forall_mem_cons, hfirst, ih]

/-- A chain whose hops carry the modes changes nothing. -/
theorem journey_configuration {hops : List Hop} (c : Configuration)
    (hle : ∀ h ∈ hops, h.contract.modesSince ≤ h.version) :
    (journey hops c).configuration = c := by
  induction hops with
  | nil => rfl
  | cons h hops ih =>
    obtain ⟨hfirst, hrest⟩ := List.forall_mem_cons.mp hle
    show (journey hops (h.receive c).configuration).configuration = c
    rw [receive_configuration hfirst]
    exact ih hrest

end Hop

/-- Nothing is lost and nothing foreign is carried without a record. What a receiver logs are two
debug records if the modes are derived from the flags, and else a warning for each mode of unknown
code; so it can be read off the log which codes are unknown, and whether a mode was derived and from
which flag. A chain of hops without a debug record leaves the configuration as it is. -/
theorem receipts_tell :
    (∀ (p : Parcel) (version : UInt32) (k : WireContract),
      p.receiptLogs version k =
        (if version < k.modesSince then
          [.derivedMode "IPv4" p.enablesIpv4 version, .derivedMode "IPv6" p.enablesIpv6 version]
        else
          warnings "IPv4" (Mode.unknownCode? (p.toConfiguration version k).ipv4Mode) version ++
            warnings "IPv6" (Mode.unknownCode? (p.toConfiguration version k).ipv6Mode) version) ∧
      Tells (p.receiptLogs version k) "IPv4" .unknown (p.toConfiguration version k).ipv4Mode
        p.enablesIpv4 version k ∧
      Tells (p.receiptLogs version k) "IPv6" .unknown (p.toConfiguration version k).ipv6Mode
        p.enablesIpv6 version k) ∧
    ∀ (hops : List Hop) (c : Configuration),
      ((∀ r ∈ (Hop.journey hops c).logs, r.level ≠ .debug) ↔
        ∀ h ∈ hops, h.contract.modesSince ≤ h.version) ∧
      ((∀ r ∈ (Hop.journey hops c).logs, r.level ≠ .debug) →
        (Hop.journey hops c).configuration = c) := by
  constructor
  · intro p version k
    exact ⟨p.receiptLogs_eq version k, p.tells_ipv4 version k, p.tells_ipv6 version k⟩
  · intro hops c
    have hsilent := Hop.journey_silent_iff hops c
    exact ⟨hsilent, fun hlogs => Hop.journey_configuration c (hsilent.mp hlogs)⟩

/-- Modes of unknown code are carried over two hops with a warning for each of them at each hop. -/
theorem receipts_tell_foreign :
    let ipv4 : UnknownCode := ⟨7, by decide⟩
    let ipv6 : UnknownCode := ⟨-3, by decide⟩
    let c : Configuration :=
      { Configuration.empty with ipv4Mode := .unknown ipv4, ipv6Mode := .unknown ipv6 }
    let hops : List Hop := [⟨12, .standard⟩, ⟨20, ⟨13, 20⟩⟩]
    (Hop.journey hops c).logs =
        [.unknownMode "IPv4" ipv4 12, .unknownMode "IPv6" ipv6 12,
          .unknownMode "IPv4" ipv4 20, .unknownMode "IPv6" ipv6 20] ∧
      (∀ r ∈ (Hop.journey hops c).logs, r.level ≠ .debug) ∧
      (Hop.journey hops c).configuration = c ∧
      ∃ r ∈ c.toParcel.receiptLogs 12 .standard, r.Warns "IPv6" := by
  intro ipv4 ipv6 c hops
  have hchain := receipts_tell.2 hops c
  have hsilent : ∀ r ∈ (Hop.journey hops c).logs, r.level ≠ .debug := hchain.1.mpr (by decide)
  have hreceipt := (receipts_tell.1 c.toParcel 12 .standard).2.2
  exact ⟨rfl, hsilent, hchain.2 hsilent, hreceipt.warns.mp ⟨ipv6, rfl⟩⟩

end Provisioning
