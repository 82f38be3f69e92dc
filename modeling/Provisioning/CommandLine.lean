import Provisioning.CommandLine.Arguments
import Provisioning.Configuration.Schema
import Provisioning.Hop
import Provisioning.Parcel.Rendering
import Provisioning.Parcel.Schema
import Provisioning.WireContract

/-! # The command line

    The program converts configuration files to the stable form and back, shows parcels, and
    names mode codes. What it does is a function of its arguments and of the files that it reads;
    the files are read through `Files`, in any monad.

    Arguments that are not as declared end the program with status 2 before it does anything. An
    error ends it with status 1 and a message on the error output, behind what has been logged.
-/

namespace Provisioning.CommandLine

/-! ### Invocations -/

/-- An address family. -/
inductive Family
  | ipv4
  | ipv6
  deriving DecidableEq, Repr

/-- What the program is to do. A file that is not given is the standard input. -/
inductive Command
  /-- Converts a configuration to a parcel. -/
  | toStable (file? : Option String) (pretty validates : Bool)
  /-- Converts a parcel of some version, under some contract, to a configuration. -/
  | fromStable (file? : Option String) (version? : Option UInt32) (contract? : Option String)
  /-- Shows a parcel. -/
  | show (file? : Option String)
  /-- Names the code of a mode. -/
  | mode (family : Family) (code : Int32)
  deriving DecidableEq

/-- A command and what is to be logged. -/
structure Invocation where
  quiet : Bool
  verbosity : Nat
  command : Command
  deriving DecidableEq

/-! ### Options -/

/-- The options. -/
inductive OptionName
  | quiet
  | verbose
  | pretty
  | noValidate
  | interfaceVersion
  | contract
  deriving DecidableEq, Repr

/-- The options of every command, which may also stand in front of it. -/
def globalOptions : List (OptionSpec OptionName) := [
  ⟨.quiet, .flag, some 'q', none⟩,
  ⟨.verbose, .counter, some 'v', none⟩]

/-- The options for converting to the stable form. -/
def toStableOptions : List (OptionSpec OptionName) := [
  ⟨.pretty, .flag, some 'p', some "pretty"⟩,
  ⟨.noValidate, .flag, none, some "no-validate"⟩]

/-- The options for converting from the stable form. -/
def fromStableOptions : List (OptionSpec OptionName) := [
  ⟨.interfaceVersion, .value, some 'i', some "interface-version"⟩,
  ⟨.contract, .value, some 'c', some "contract"⟩]

/-- The options that were given to a command. -/
abbrev Options := List (Given OptionName)

/-- Whether an option was given. -/
def Options.has (options : Options) (name : OptionName) : Bool :=
  !(valuesOf name options).isEmpty

/-- The value of an option. -/
def Options.value? (options : Options) (name : OptionName) : Option String :=
  (valuesOf name options).head?

/-! ### Reading the arguments -/

/-- A number from `least` to `greatest`. -/
def number? (least greatest : Int) (s : String) : Option Int :=
  match Numeral.readInt 10 (Numeral.wordValues 63) s.toList with
  | .ok n => if least ≤ n ∧ n ≤ greatest then some n else none
  | .error _ => none

/-- The version given by an option, nothing at all if it is not a number of 32 bits. -/
def version? (options : Options) : Option (Option UInt32) :=
  match options.value? .interfaceVersion with
  | none => some none
  | some s => (number? 0 4294967295 s).map fun n => some (UInt32.ofNat n.toNat)

/-- The only argument, which may be missing. -/
def atMostOne : List String → Option (Option String)
  | [] => some none
  | [s] => some (some s)
  | _ => none

/-- The family of the given name. -/
def family? (s : String) : Option Family :=
  if s = "ipv4" then some .ipv4
  else if s = "ipv6" then some .ipv6
  else none

/-- The kinds of command. -/
inductive CommandKind
  | toStable
  | fromStable
  | show
  | mode
  deriving DecidableEq, Repr

/-- The command of the given name or short name. -/
def CommandKind.ofName? (s : String) : Option CommandKind :=
  if s = "to-stable" ∨ s = "t" then some .toStable
  else if s = "from-stable" ∨ s = "f" then some .fromStable
  else if s = "show" ∨ s = "s" then some .show
  else if s = "mode" then some .mode
  else none

/-- The options that a command takes besides the global ones. -/
def CommandKind.options : CommandKind → List (OptionSpec OptionName)
  | .toStable => toStableOptions
  | .fromStable => fromStableOptions
  | .show | .mode => []

/-- The place of an argument that may be a number below zero. -/
def CommandKind.numberPlace? : CommandKind → Option Nat
  | .mode => some 1
  | _ => none

/-- The command of a kind with the given options and arguments. -/
def CommandKind.command? (kind : CommandKind) (options : Options) (args : List String) :
    Option Command :=
  match kind with
  | .toStable => do
    let file? ← atMostOne args
    return .toStable file? (options.has .pretty) (!options.has .noValidate)
  | .fromStable => do
    let file? ← atMostOne args
    let version? ← version? options
    return .fromStable file? version? (options.value? .contract)
  | .show => (atMostOne args).map .show
  | .mode =>
    match args with
    | [family, code] => do
      let family ← family? family
      let code ← number? (-2147483648) 2147483647 code
      return .mode family (Int32.ofInt code)
    | _ => none

/-- How often an option was given to a command, or else in front of it. -/
def countOf (name : OptionName) (before behind : Options) : Nat :=
  match (valuesOf name behind).length with
  | 0 => (valuesOf name before).length
  | n => n

/-- Reads the arguments of the program. -/
def parse? (args : List String) : Option Invocation := do
  let before ← readLeading globalOptions (args.length + 1) args
  guard (areUnique globalOptions before.options)
  match before.rest with
  | [] => none
  | name :: rest =>
    let kind ← CommandKind.ofName? name
    let specs := globalOptions ++ kind.options
    let behind ← readMixed specs kind.numberPlace? (rest.length + 1) 0 rest
    guard (areUnique specs behind.options)
    let command ← kind.command? behind.options behind.rest
    return {
      quiet := 0 < countOf .quiet before.options behind.options
      verbosity := countOf .verbose before.options behind.options
      command }

/-! ### Files -/

/-- Why a file or stream could not be read. -/
inductive ReadError
  | notOpened (cause : String)
  | notRead (cause : String)
  | notText
  deriving DecidableEq, Repr

/-- What is wrong. -/
def ReadError.cause : ReadError → String
  | .notOpened cause | .notRead cause => cause
  | .notText => "stream did not contain valid UTF-8"

/-- The text that the bytes of a file make up. -/
def decodeText (bytes : ByteArray) : Except ReadError String :=
  match String.fromUTF8? bytes with
  | some s => .ok s
  | none => .error .notText

/-- How files and the standard input are read. -/
structure Files (m : Type → Type) where
  input : m (Except ReadError String)
  file : (path : String) → m (Except ReadError String)

/-! ### Errors -/

/-- Why a command fails. -/
inductive CommandError
  | badConfigurationText (text : String)
  | badStableText (text : String)
  | inputOutput (text : String)
  | other (text : String)
  | failed (cause : Failure)
  deriving DecidableEq, Repr

/-- The message of an error. -/
def CommandError.message : CommandError → String
  | .badConfigurationText text => "serde_yaml::Error: " ++ text
  | .badStableText text => "serde_json::Error: " ++ text
  | .inputOutput text => "std::io::Error: " ++ text
  | .other text => text
  | .failed cause => s!"ProvError: {cause}"

/-- The error of reading the named file, or the standard input. -/
def CommandError.ofRead (path : String) : ReadError → CommandError
  | .notOpened cause => .other s!"Failed to open {path}: {cause}"
  | e => .inputOutput e.cause

/-! ### Commands -/

/-- The blank at which a line is not broken. -/
def noBreakSpace : Char := Char.ofNat 0xa0

/-- A character, or a blank in the place of a no-break space. -/
def plainBlank (c : Char) : Char :=
  if c = noBreakSpace then ' ' else c

/-- A text with each no-break space replaced by a blank. -/
def plainBlanks (s : String) : String :=
  String.ofList (s.toList.map plainBlank)

/-- What a command writes to the standard output or why it fails, behind what it logs. -/
structure Report where
  logs : List LogRecord
  output : Except CommandError String

/-- What a command reports when it logs nothing. -/
def Report.silent (output : Except CommandError String) : Report :=
  ⟨[], output⟩

/-- A text with the end of its line. -/
def line (s : String) : String :=
  s ++ "\n"

/-- Converts the text of a configuration. -/
def convertToStable (pretty validates : Bool) (text : String) : Report :=
  match Configuration.ofYaml text with
  | .error e => .silent (.error (.failed e))
  | .ok c =>
    let loaded : LogRecord := ⟨.debug, s!"Loaded {c}"⟩
    match if validates then c.validate else .ok () with
    | .error e => ⟨[loaded], .error (.failed e.failure)⟩
    | .ok () =>
      ⟨[loaded], .ok (line (if pretty then c.toParcel.toPrettyJson else c.toParcel.toJson))⟩

/-- The complaint about a version that the contract does not know yet. -/
def versionWarning (k : WireContract) (version : UInt32) : List LogRecord :=
  if k.currentVersion < version then
    [⟨.warn, s!"Interface version {version} is newer than " ++
      s!"current version {k.currentVersion} of wire contract"⟩]
  else []

/-- Converts the text of a parcel. -/
def convertFromStable (k : WireContract) (version : UInt32) (text : String) : Report :=
  match Parcel.ofJson text with
  | .error e => .silent (.error (.failed e))
  | .ok p => ⟨p.receiptLogs version k, .ok (p.toConfiguration version k).toYaml⟩

/-- Shows the text of a parcel. -/
def showStable (text : String) : Report :=
  match Parcel.ofJson text with
  | .error e => .silent (.error (.failed e))
  | .ok p => .silent (.ok (line (toString p)))

/-- Names the code of a mode. -/
def modeName (family : Family) (code : Int32) : String :=
  match family with
  | .ipv4 => Ipv4Mode.name (Mode.ofCode code)
  | .ipv6 => Ipv6Mode.name (Mode.ofCode code)

section run
variable {m : Type → Type} [Monad m]

/-- Reads a file, a dash being the standard input, and reports on its text. -/
def withText (files : Files m) (file? : Option String) (report : String → Report) :
    m Report := do
  let path := file?.getD "-"
  let contents ← if path = "-" then files.input else files.file path
  match contents with
  | .error e => return .silent (.error (.ofRead path e))
  | .ok text => return report (plainBlanks text)

/-- The contract in the named file, or else the one of this library. -/
def loadContract (files : Files m) : Option String → m (Except Failure WireContract)
  | none => return .ok .standard
  | some path => do
    let contents ← files.file path
    return WireContract.ofFile path (contents.mapError ReadError.cause)

/-- Runs a command. -/
def Command.run (files : Files m) : Command → m Report
  | .toStable file? pretty validates => withText files file? (convertToStable pretty validates)
  | .fromStable file? version? contract? => do
    match ← loadContract files contract? with
    | .error e => return .silent (.error (.failed e))
    | .ok k =>
      let version := version?.getD k.currentVersion
      let report ← withText files file? (convertFromStable k version)
      return { report with logs := versionWarning k version ++ report.logs }
  | .show file? => withText files file? showStable
  | .mode family code => return .silent (.ok (line (modeName family code)))

end run

/-! ### The program -/

/-- What the program leaves behind. -/
structure Outcome where
  status : Nat
  output : String
  errors : String

/-- Whether a record is shown: without the option the warnings are, with one the information,
and with more everything. -/
def Invocation.logs (i : Invocation) (r : LogRecord) : Bool :=
  !i.quiet &&
    match r.level with
    | .warn => true
    | .info => 1 ≤ i.verbosity
    | .debug => 2 ≤ i.verbosity

/-- What a level is called in front of a message. -/
def levelLabel : LogLevel → String
  | .warn => "WARN"
  | .info => "INFO"
  | .debug => "DEBUG"

/-- A record as it is shown, the lines behind the first indented by four. -/
def logText (r : LogRecord) : String :=
  let indented := r.message.toList.flatMap fun c =>
    if c = '\n' then ['\n', ' ', ' ', ' ', ' '] else [c]
  line (levelLabel r.level ++ " " ++ String.ofList indented)

/-- The record about the program's own version. -/
def versionRecord : LogRecord :=
  ⟨.info, "ipprovctl version: 0.1.0"⟩

/-- What the program leaves behind after a report. -/
def Invocation.outcome (i : Invocation) (r : Report) : Outcome :=
  let shown := String.join (((versionRecord :: r.logs).filter i.logs).map logText)
  match r.output with
  | .ok text => ⟨0, text, shown⟩
  | .error e => ⟨1, "", shown ++ line e.message⟩

/-- What the program leaves behind when the arguments are not as declared. -/
def usageOutcome : Outcome :=
  ⟨2, "", line "Usage: ipprovctl [-q] [-v]... <to-stable|from-stable|show|mode> [ARGUMENTS]"⟩

/-- Runs the program. -/
def run {m : Type → Type} [Monad m] (files : Files m) (args : List String) : m Outcome := do
  match parse? args with
  | none => return usageOutcome
  | some i => return i.outcome (← i.command.run files)

end Provisioning.CommandLine
