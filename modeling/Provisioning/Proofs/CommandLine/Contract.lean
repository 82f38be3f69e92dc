import Provisioning.Proofs.CommandLine.Pipeline
import Provisioning.Proofs.Hop.Receipt
import Provisioning.Proofs.WireContract.Format

/-! # Contracts that are loaded

    A parcel is taken for one of the contract's current version unless the user says otherwise, and
    whatever this library writes is of that version. A contract that is loaded has the modes
    carried from its current version on. So under such a contract a configuration comes out of its
    own parcel as it was, and the program reads the codes of a parcel and never guesses a mode
    from a flag.
-/

namespace Provisioning

/-! ### Codes and flags -/

/-- Where modes are carried they are those of the codes. -/
theorem Parcel.modes_of_carriesModes {version : UInt32} {k : WireContract}
    (hcarries : k.carriesModes version = true) (p : Parcel) :
    (p.toConfiguration version k).ipv4Mode = Mode.ofCode p.ipv4ModeCode ∧
      (p.toConfiguration version k).ipv6Mode = Mode.ofCode p.ipv6ModeCode := by
  unfold toConfiguration receiveIpv4Mode receiveIpv6Mode
  simp only [receiveMode_mode, if_pos hcarries, and_self]

namespace CommandLine

/-! ### Reports -/

/-- A report on a parcel of which no mode is guessed: nothing is logged about a mode that is
derived from a flag, and the configuration that is printed has the modes of the codes. -/
structure Report.TakesCodes (contents : Except ReadError String) (r : Report) : Prop where
  not_derived : ∀ family flag version, .derivedMode family flag version ∉ r.logs
  printed : ∀ text p, contents = .ok text → Parcel.ofJson (plainBlanks text) = .ok p →
    ∃ c : Configuration, r.output = .ok c.toYaml ∧
      c.ipv4Mode = Mode.ofCode p.ipv4ModeCode ∧ c.ipv6Mode = Mode.ofCode p.ipv6ModeCode
  /-- Nothing is printed if there is no parcel. -/
  readable : ∀ output, r.output = .ok output →
    ∃ text p, contents = .ok text ∧ Parcel.ofJson (plainBlanks text) = .ok p

theorem not_derived_of_levels {ls : List LogRecord} (h : ∀ l ∈ ls, l.level = .warn)
    (family : String) (flag : Bool) (version : UInt32) :
    .derivedMode family flag version ∉ ls := by
  intro hmem
  cases h _ hmem

/-- Whatever the contents are, a report is made of their text. -/
theorem withText_run (files : Files Id) (file? : Option String) (report : String → Report) :
    (withText files file? report).run =
      match files.contents file? with
      | .error e => .silent (.error (.ofRead (file?.getD "-") e))
      | .ok text => report (plainBlanks text) := by
  cases hcontents : files.contents file? with
  | ok text => exact withText_eq hcontents report
  | error e =>
    unfold Files.contents at hcontents
    unfold withText
    -- A dash stands for the input; either of the two may fail to be read.
    by_cases hpath : file?.getD "-" = "-"
    · simp only [hpath, if_true] at hcontents ⊢
      have hinput : files.input = pure (.error e) := hcontents
      rw [hinput]
      rfl
    · simp only [hpath, if_false] at hcontents ⊢
      have hfile : files.file (file?.getD "-") = pure (.error e) := hcontents
      rw [hfile]
      rfl

/-- A conversion for a version that carries the modes takes the codes. -/
theorem takesCodes_convertFromStable {k : WireContract} {version : UInt32}
    (hcarries : k.carriesModes version = true) (files : Files Id) (file? : Option String) :
    (withText files file? (convertFromStable k version)).run.TakesCodes (files.contents file?) := by
  rw [withText_run]
  cases hcontents : files.contents file? with
  | error e =>
    -- Nothing is read, so there is no parcel.
    refine ⟨nofun, ?_, nofun⟩
    intro text p htext
    cases htext
  | ok text =>
    dsimp only
    unfold convertFromStable
    cases hread : Parcel.ofJson (plainBlanks text) with
    | error e =>
      -- What is no parcel is reported, and nothing is printed.
      refine ⟨nofun, ?_, nofun⟩
      rintro text' p htext hp
      obtain rfl := Except.ok.inj htext
      rw [hread] at hp
      cases hp
    | ok p =>
      refine ⟨?_, ?_, ?_⟩
      · exact not_derived_of_levels (p.level_of_receiptLogs hcarries)
      · intro text' p' htext hp
        obtain rfl := Except.ok.inj htext
        obtain rfl := Except.ok.inj (hread.symm.trans hp)
        exact ⟨_, rfl, p.modes_of_carriesModes hcarries⟩
      · intro output _
        exact ⟨text, p, rfl, hread⟩

/-! ### Contracts of the program -/

/-- The contract that the program takes is consistent, from a file or without one. -/
theorem consistent_of_loadContract {files : Files Id} {contract? : Option String}
    {k : WireContract} (h : (loadContract files contract?).run = .ok k) :
    k.modesSince ≤ k.currentVersion := by
  cases contract? with
  | none =>
    -- The contract that is built in.
    obtain rfl : .standard = k := Except.ok.inj h
    decide
  | some path =>
    have hload :
        WireContract.ofFile path ((files.file path).run.mapError ReadError.cause) = .ok k := h
    unfold WireContract.ofFile at hload
    split at hload
    · cases hload
    · exact (WireContract.says_of_ofYaml hload).1

/-- Without a version the program takes the codes, whatever contract it loads. -/
theorem takesCodes_fromStable {files : Files Id} {contract? file? : Option String}
    {k : WireContract} (h : (loadContract files contract?).run = .ok k) :
    ((Command.fromStable file? none contract?).run files).run.TakesCodes
      (files.contents file?) := by
  have hconsistent := consistent_of_loadContract h
  have hcarries : k.carriesModes k.currentVersion = true :=
    WireContract.carriesModes_of_le hconsistent (UInt32.le_refl k.currentVersion)
  -- The version is the contract's own, and so no newer than it.
  have hcurrent : versionWarning k k.currentVersion = [] := by
    unfold versionWarning
    rw [if_neg (UInt32.lt_irrefl k.currentVersion)]
  have hload : loadContract files contract? = pure (.ok k) := h
  have hrun : ((Command.fromStable file? none contract?).run files).run =
      ⟨versionWarning k k.currentVersion ++
          (withText files file? (convertFromStable k k.currentVersion)).run.logs,
        (withText files file? (convertFromStable k k.currentVersion)).run.output⟩ := by
    unfold Command.run
    dsimp only
    rw [hload]
    rfl
  rw [hrun, hcurrent, List.nil_append]
  exact takesCodes_convertFromStable hcarries files file?

end CommandLine

/-! ### Contracts that are loaded -/

namespace WireContract

open CommandLine (Asks Files Invocation Report leftBy loadContract)
open Yaml (IsText parse?)

/-- The file of a contract in which one number is written. -/
def oneNumber (name : String) (n : UInt32) : String :=
  Yaml.text (.record [(name, .integer n.toNat)])

theorem parse?_oneNumber {name : String} (hname : isMemberName name.toList = true) (n : UInt32) :
    parse? (oneNumber name n) = some (.mapping none
      [(.scalar none name .plain, Yaml.ofDatum (.integer n.toNat))]) := by
  have hlt : n.toNat < 2 ^ 32 := n.toNat_lt
  have hfits : FitsWord n.toNat := by
    constructor <;> omega
  have hreadable : (Datum.record [(name, .integer n.toNat)]).Readable 1 := by
    intro m hm
    obtain rfl := List.mem_singleton.mp hm
    exact ⟨hname, hfits⟩
  unfold oneNumber
  rw [Yaml.parse?_text (by decide) hreadable]
  simp only [Yaml.ofDatum, Yaml.ofMembers]

/-- What is written for a number says the number. -/
theorem uint32_says_ofDatum (n : UInt32) :
    Format.uint32.Shaped (Yaml.ofDatum (.integer n.toNat)) ∧
      Format.uint32.Says (Yaml.ofDatum (.integer n.toNat)) n := by
  have hlt : n.toNat < 2 ^ 32 := n.toNat_lt
  have hfits : FitsWord n.toNat := by
    constructor <;> omega
  have hchars : (String.ofList (Numeral.signedDecimal n.toNat)).toList =
      Numeral.signedDecimal n.toNat := String.toList_ofList
  have hread := Yaml.unsigned?_signedDecimal hfits (Int.natCast_nonneg n.toNat)
  rw [← hchars] at hread
  obtain ⟨htext, hhead, -⟩ := Yaml.unsigned?_eq_some_iff.mp hread
  rw [Yaml.ofDatum]
  exact ⟨⟨_, _, rfl, htext, fun h => absurd h hhead⟩, _, rfl, htext⟩

/-- No contract that is loaded makes a configuration be misread. A text is loaded only if the
version since which the modes are carried is not newer than the current one, a key that is not
written counting as 12, and is else reported as a bad contract, whatever is wrong with it. Where
nothing else is wrong this is the only condition, so a text with one of the two keys is loaded
exactly if the other's default fits. Under a contract that is loaded every configuration comes out
of its own parcel as it was, for the current version and all later ones, and the program, if it is
given no version, never derives a mode from a flag. -/
theorem loaded_never_misreads :
    (∀ s f, ofYaml s = .error f → f.kind = .invalidWireContract) ∧
    (∀ s k, ofYaml s = .ok k → k.modesSince ≤ k.currentVersion ∧
      (∃ v, parse? s = some v ∧ format.Says v k) ∧
      ∀ version (c : Configuration), k.currentVersion ≤ version →
        c.toParcel.toConfiguration version k = c) ∧
    (∀ s v, parse? s = some v → format.Shaped v → ¬ format.Flawed v → ∃ k, format.Says v k ∧
      ofYaml s = if k.modesSince ≤ k.currentVersion then .ok k else .error k.inconsistent) ∧
    (∀ s tag? key w n, parse? s = some (.mapping tag? [(key, w)]) →
      Format.uint32.Shaped w → Format.uint32.Says w n →
      (IsText key "provisioning-mode-since" → ((∃ k, ofYaml s = .ok k) ↔ n ≤ 12)) ∧
      (IsText key "current-version" → ((∃ k, ofYaml s = .ok k) ↔ 12 ≤ n))) ∧
    ∀ files args file? contract? k, Asks args (.fromStable file? none contract?) →
      (loadContract files contract?).run = .ok k →
        ∃ (i : Invocation) (r : Report), leftBy files args = i.outcome r ∧
          r.TakesCodes (files.contents file?) := by
  have hloads : ∀ {P : Prop} [Decidable P] {k : WireContract} {f : Failure},
      (∃ k', (if P then .ok k else .error f : Except Failure WireContract) = .ok k') ↔ P := by
    intro P _ k f
    by_cases hP : P
    · simp [hP]
    · simp [hP]
  refine ⟨fun s f => kind_of_ofYaml, ?_, fun s v => ofYaml_of_shaped, ?_, ?_⟩
  · intro s k h
    obtain ⟨hconsistent, hsaid⟩ := says_of_ofYaml h
    refine ⟨hconsistent, hsaid, ?_⟩
    intro version c hversion
    rw [c.toConfiguration_toParcel, if_pos (carriesModes_of_le hconsistent hversion)]
  · intro s tag? key w n hparse hshaped hn
    constructor
    · intro hkey
      rw [ofYaml_of_since hparse hshaped hn hkey]
      exact hloads
    · intro hkey
      rw [ofYaml_of_current hparse hshaped hn hkey]
      exact hloads
  · intro files args file? contract? k hargs hload
    obtain ⟨i, hrun⟩ := CommandLine.leftBy_eq files hargs
    exact ⟨i, _, hrun, CommandLine.takesCodes_fromStable hload⟩

/-- A contract that only says since when the modes are carried, and too late; and one that only
says the current version, under which a static configuration is not taken for DHCP. -/
theorem loaded_never_misreads_partial :
    let late := oneNumber "provisioning-mode-since" 13
    let early := oneNumber "current-version" 20
    let c : Configuration := { Configuration.empty with ipv4Mode := .static }
    let files : Files Id :=
      { input := return .ok c.toParcel.toJson, file := fun _ => return .ok early }
    let args := ["from-stable", "-c", "contract.yaml"]
    (∃ f, ofYaml late = .error f ∧ f.kind = .invalidWireContract) ∧
      (∃ k, ofYaml early = .ok k ∧ c.toParcel.toConfiguration 20 k = c) ∧
      ∃ (i : Invocation) (r : Report), leftBy files args = i.outcome r ∧
        r.TakesCodes (files.contents none) := by
  intro late early c files args
  have hlate := parse?_oneNumber (by decide : isMemberName "provisioning-mode-since".toList) 13
  have hearly := parse?_oneNumber (by decide : isMemberName "current-version".toList) 20
  obtain ⟨hshaped, hsaid⟩ := uint32_says_ofDatum 13
  obtain ⟨hshaped', hsaid'⟩ := uint32_says_ofDatum 20
  -- The other key counts as 12.
  have hload : ofYaml early = .ok ⟨12, 20⟩ := by
    rw [ofYaml_of_current hearly hshaped' hsaid' .scalar]
    rfl
  obtain ⟨hkind, hown, -, hsingle, hcodes⟩ := loaded_never_misreads
  refine ⟨?_, ⟨_, hload, (hown early _ hload).2.2 20 c (by decide)⟩, ?_⟩
  · have hiff := (hsingle late none _ _ 13 hlate hshaped hsaid).1 .scalar
    cases houtcome : ofYaml late with
    | error f => exact ⟨f, rfl, hkind late f houtcome⟩
    | ok k => exact absurd (hiff.mp ⟨k, houtcome⟩) (by decide)
  · have hargs : Asks args (.fromStable none none (some "contract.yaml")) :=
      ⟨⟨false, 0, _⟩, by decide, rfl⟩
    exact hcodes files args none (some "contract.yaml") ⟨12, 20⟩ hargs hload

end WireContract

end Provisioning
