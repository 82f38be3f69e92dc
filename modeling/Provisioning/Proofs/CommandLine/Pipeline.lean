import Provisioning.Proofs.CommandLine.Blanks

/-! # Through the program and back

    A configuration file is converted to the stable form, and what the program prints is converted
    back. In between the program looks at the file twice, and each time it puts blanks in the place
    of no-break spaces. Whatever configuration the first run finds in the file, the second one
    prints the file of that configuration with its no-break spaces replaced. So the configuration
    of the file comes back if it has none of them in its texts, and only then.
-/

namespace Provisioning

/-- The codec of configuration files reads back what it writes. -/
theorem Configuration.codec_ofYaml_toYaml (c : Configuration) :
    schema.codec.ofYaml c.toYaml = .ok c := by
  obtain ⟨ms, hencode⟩ := c.exists_encode_eq
  exact Codec.ofYaml_toYaml schema.codec 5 (by decide) hencode

namespace CommandLine

/-! ### Runs -/

/-- Whether arguments ask for a command, whatever else they say about what is to be logged. -/
def Asks (args : List String) (command : Command) : Prop :=
  ∃ i, parse? args = some i ∧ i.command = command

/-- The contents of a file, or of the standard input. -/
def Files.contents (files : Files Id) (file? : Option String) : Except ReadError String :=
  let path := file?.getD "-"
  if path = "-" then files.input.run else (files.file path).run

/-- What a run on files that hold still leaves behind. -/
def leftBy (files : Files Id) (args : List String) : Outcome :=
  (run files args).run

/-- A run ends with what its command reports. -/
theorem leftBy_eq (files : Files Id) {args : List String} {command : Command}
    (h : Asks args command) :
    ∃ i : Invocation, leftBy files args = i.outcome (command.run files).run := by
  obtain ⟨i, hparse, rfl⟩ := h
  refine ⟨i, ?_⟩
  unfold leftBy run
  simp only [hparse]
  rfl

/-- A report is made of the text of a file with blanks in the place of no-break spaces. -/
theorem withText_eq {files : Files Id} {file? : Option String} {text : String}
    (h : files.contents file? = .ok text) (report : String → Report) :
    (withText files file? report).run = report (plainBlanks text) := by
  unfold Files.contents at h
  unfold withText
  by_cases hpath : file?.getD "-" = "-"
  · simp only [hpath, if_true] at h ⊢
    have hinput : files.input = pure (.ok text) := h
    rw [hinput]
    rfl
  · simp only [hpath, if_false] at h ⊢
    have hcontents : files.file (file?.getD "-") = pure (.ok text) := h
    rw [hcontents]
    rfl

theorem Invocation.outcome_of_ok (i : Invocation) {r : Report} {text : String}
    (h : r.output = .ok text) : (i.outcome r).status = 0 ∧ (i.outcome r).output = text := by
  unfold outcome
  simp only [h, and_self]

/-- A run that ends well has reported something. -/
theorem Invocation.exists_output {i : Invocation} {r : Report} (h : (i.outcome r).status = 0) :
    ∃ text, r.output = .ok text := by
  cases houtput : r.output with
  | ok text => exact ⟨text, rfl⟩
  | error e =>
    unfold outcome at h
    simp only [houtput] at h
    cases h

/-! ### To the stable form -/

/-- The stable form that is printed for a parcel. -/
def stableLine (pretty : Bool) (p : Parcel) : String :=
  line (if pretty then p.toPrettyJson else p.toJson)

/-- The stable form is a line of JSON. -/
theorem exists_stableLine_eq (pretty : Bool) (p : Parcel) :
    ∃ l : Json.Layout, l.OnlyBlanks ∧ stableLine pretty p =
      line (String.ofList (Json.text l 0 (Parcel.schema.codec.encode p))) := by
  cases pretty with
  | true => exact ⟨.indented, Json.indented_onlyBlanks, rfl⟩
  | false => exact ⟨.oneLine, Json.oneLine_onlyBlanks, rfl⟩

theorem convertToStable_of_ok {text : String} {c : Configuration}
    (htext : Configuration.ofYaml text = .ok c) (hvalid : c.isValid = true) (pretty : Bool) :
    (convertToStable pretty true text).output = .ok (stableLine pretty c.toParcel) := by
  have hvalidate : c.validate = .ok () := by
    unfold Configuration.isValid at hvalid
    split at hvalid
    · assumption
    · cases hvalid
  unfold convertToStable
  simp only [htext, if_true, hvalidate]
  rfl

/-- What is printed is the stable form of the configuration that was found in the file. -/
theorem exists_of_convertToStable {pretty validates : Bool} {text output : String}
    (h : (convertToStable pretty validates text).output = .ok output) :
    ∃ c, Configuration.ofYaml text = .ok c ∧ output = stableLine pretty c.toParcel := by
  unfold convertToStable at h
  split at h
  · cases h
  · next c htext =>
    refine ⟨c, htext, ?_⟩
    split at h
    · cases h
    · exact (Except.ok.inj h).symm

/-! ### From the stable form -/

/-- From the stable form of a configuration the file of the configuration is printed, with blanks
in the place of no-break spaces. -/
theorem convertFromStable_stableLine (pretty : Bool) (c : Configuration) {k : WireContract}
    {version : UInt32} (hcarries : k.carriesModes version = true) :
    (convertFromStable k version (plainBlanks (stableLine pretty c.toParcel))).output =
      .ok (c.mapTexts plainBlanks).toYaml := by
  obtain ⟨l, hl, hline⟩ := exists_stableLine_eq pretty c.toParcel
  have hread := ofJson_plainBlanks hl c.toParcel
  have hreceived := c.toConfiguration_toParcel version k
  rw [if_pos hcarries] at hreceived
  unfold convertFromStable
  rw [hline]
  simp only [hread, Parcel.toConfiguration_mapTexts, hreceived]

/-! ### The pipeline -/

section

variable {c : Configuration} {files files' : Files Id} {args args' : List String}
  {file? file?' : Option String} {pretty : Bool}

/-- Whether a run to the stable form on one set of files and a run back on another succeed, and
the latter prints a file of the configuration. -/
def Returns (c : Configuration) (files files' : Files Id) (args args' : List String) : Prop :=
  (leftBy files args).status = 0 ∧ (leftBy files' args').status = 0 ∧
    Configuration.ofYaml (leftBy files' args').output = .ok c

/-- The run to the stable form reports what is made of the text with blanks in the place of
no-break spaces. -/
theorem leftBy_toStable {validates : Bool} {text : String}
    (hargs : Asks args (.toStable file? pretty validates))
    (hfile : files.contents file? = .ok text) :
    ∃ i : Invocation,
      leftBy files args = i.outcome (convertToStable pretty validates (plainBlanks text)) := by
  obtain ⟨i, hrun⟩ := leftBy_eq files hargs
  have hreport : ((Command.toStable file? pretty validates).run files).run =
      convertToStable pretty validates (plainBlanks text) := withText_eq hfile _
  rw [hreport] at hrun
  exact ⟨i, hrun⟩

/-- The run back on the stable form of a configuration. -/
theorem leftBy_fromStable (hargs' : Asks args' (.fromStable file?' none none))
    (hfile' : files'.contents file?' = .ok (stableLine pretty c.toParcel)) :
    (leftBy files' args').status = 0 ∧
      Configuration.ofYaml (leftBy files' args').output = .ok (c.mapTexts plainBlanks) := by
  obtain ⟨i, hrun⟩ := leftBy_eq files' hargs'
  have houtput : ((Command.fromStable file?' none none).run files').run.output =
      (convertFromStable .standard WireContract.standard.currentVersion
        (plainBlanks (stableLine pretty c.toParcel))).output := by
    show (withText files' file?' (convertFromStable .standard _)).run.output = _
    rw [withText_eq hfile']
    rfl
  rw [convertFromStable_stableLine pretty c (by decide)] at houtput
  obtain ⟨hstatus, hprinted⟩ := i.outcome_of_ok houtput
  have hyaml := (c.mapTexts plainBlanks).codec_ofYaml_toYaml
  rw [hrun, hprinted]
  refine ⟨hstatus, ?_⟩
  unfold Configuration.ofYaml
  rw [hyaml]

/-- If the first run succeeds on a file, what comes back has no no-break spaces. -/
theorem noBreakSpace_not_mem_of_returns {validates : Bool} {text : String}
    (hargs : Asks args (.toStable file? pretty validates))
    (hargs' : Asks args' (.fromStable file?' none none))
    (hfile : files.contents file? = .ok text)
    (hfile' : files'.contents file?' = .ok (leftBy files args).output)
    (h : Returns c files files' args args') : ∀ t ∈ c.texts, noBreakSpace ∉ t.toList := by
  obtain ⟨hstatus, -, hback⟩ := h
  obtain ⟨i, hrun⟩ := leftBy_toStable hargs hfile
  rw [hrun] at hstatus
  obtain ⟨output, houtput⟩ := Invocation.exists_output hstatus
  -- Whatever was found in the file, the second run prints it respelled, and what is read back
  -- from that is the configuration.
  obtain ⟨found, -, rfl⟩ := exists_of_convertToStable houtput
  rw [hrun, (i.outcome_of_ok houtput).2] at hfile'
  have hread := (leftBy_fromStable hargs' hfile').2
  rw [hback] at hread
  obtain rfl := Except.ok.inj hread
  intro t ht
  rw [Configuration.texts_mapTexts] at ht
  obtain ⟨s, -, rfl⟩ := List.mem_map.mp ht
  exact noBreakSpace_not_mem_plainBlanks s

/-- A configuration without no-break spaces in its texts comes back. -/
theorem returns_of_noBreakSpace_not_mem (hvalid : c.isValid = true)
    (hargs : Asks args (.toStable file? pretty true))
    (hargs' : Asks args' (.fromStable file?' none none))
    (hfile : files.contents file? = .ok c.toYaml)
    (hfile' : files'.contents file?' = .ok (leftBy files args).output)
    (h : ∀ t ∈ c.texts, noBreakSpace ∉ t.toList) : Returns c files files' args args' := by
  obtain ⟨i, hrun⟩ := leftBy_toStable hargs hfile
  -- Its file has no no-break spaces either, so the first run finds the configuration itself.
  have hyaml : Configuration.ofYaml (plainBlanks c.toYaml) = .ok c := by
    unfold Configuration.ofYaml
    rw [plainBlanks_toYaml h, c.codec_ofYaml_toYaml]
  have houtput := convertToStable_of_ok hyaml hvalid pretty
  obtain ⟨hstatus, hprinted⟩ := i.outcome_of_ok houtput
  rw [← hrun] at hstatus hprinted
  rw [hprinted] at hfile'
  obtain ⟨hstatus', hback⟩ := leftBy_fromStable hargs' hfile'
  rw [mapTexts_plainBlanks_eq_self h] at hback
  exact ⟨hstatus, hstatus', hback⟩

/-- A valid configuration that is written to a file, taken to the stable form and back by the
program comes out as it was, both runs ending well, if there are no no-break spaces in its display
name, search domains, SSID, BSSID text, key and cluster, and only then. Every other character
comes through. -/
theorem returns_iff_noBreakSpace_not_mem (hvalid : c.isValid = true)
    (hargs : Asks args (.toStable file? pretty true))
    (hargs' : Asks args' (.fromStable file?' none none))
    (hfile : files.contents file? = .ok c.toYaml)
    (hfile' : files'.contents file?' = .ok (leftBy files args).output) :
    Returns c files files' args args' ↔ ∀ t ∈ c.texts, noBreakSpace ∉ t.toList := by
  constructor
  · exact noBreakSpace_not_mem_of_returns hargs hargs' hfile hfile'
  · exact returns_of_noBreakSpace_not_mem hvalid hargs hargs' hfile hfile'

end

/-! ### Two configurations -/

/-- A directory with nothing in it but one file. -/
def oneFile (path text : String) : Files Id where
  input := return .ok ""
  file p := return if p = path then .ok text else .error (.notOpened "No such file or directory")

/-- No files, but a text on the standard input. -/
def onlyInput (text : String) : Files Id where
  input := return .ok text
  file _ := return .error (.notOpened "No such file or directory")

/-- A configuration with the given display name. -/
def named (name : String) : Configuration :=
  { Configuration.empty with displayName? := some name }

/-- A display name with quotes, accents and a character beyond the basic plane comes back. -/
theorem returns_iff_noBreakSpace_not_mem_quoted :
    let c := named "\"Küche\" 😀"
    let files := oneFile "c.yaml" c.toYaml
    let args := ["to-stable", "--pretty", "c.yaml"]
    Returns c files (onlyInput (leftBy files args).output) args ["from-stable"] := by
  intro c files args
  have hargs : Asks args (.toStable (some "c.yaml") true true) :=
    ⟨⟨false, 0, _⟩, by decide, rfl⟩
  have hargs' : Asks ["from-stable"] (.fromStable none none none) :=
    ⟨⟨false, 0, _⟩, by decide, rfl⟩
  refine (returns_iff_noBreakSpace_not_mem (by decide) hargs hargs' rfl rfl).mpr ?_
  decide

/-- A valid configuration that does not come back: between a colon and another character of its
display name stands a no-break space. -/
theorem not_returns_noBreakSpace :
    let c := named "a:\u00a0b"
    let files := oneFile "c.yaml" c.toYaml
    let args := ["to-stable", "c.yaml"]
    c.isValid = true ∧ files.contents (some "c.yaml") = .ok c.toYaml ∧
      ¬ Returns c files (onlyInput (leftBy files args).output) args ["from-stable"] := by
  intro c files args
  have hargs : Asks args (.toStable (some "c.yaml") false true) :=
    ⟨⟨false, 0, _⟩, by decide, rfl⟩
  have hargs' : Asks ["from-stable"] (.fromStable none none none) :=
    ⟨⟨false, 0, _⟩, by decide, rfl⟩
  refine ⟨by decide, rfl, ?_⟩
  intro h
  have hnone := noBreakSpace_not_mem_of_returns hargs hargs' rfl rfl h
  exact absurd (hnone "a:\u00a0b" (by decide)) (by decide)

end CommandLine

end Provisioning
