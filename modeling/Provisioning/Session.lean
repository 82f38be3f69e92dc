import Provisioning.Codec.Text
import Provisioning.Configuration.Schema
import Provisioning.Hop
import Provisioning.Parcel.Rendering
import Provisioning.Parcel.Schema
import Provisioning.WireContract

/-! # Sessions

    A session is a sequence of steps on named slots. A slot holds a configuration or a parcel. A
    step makes a value, converts one, edits one in place, or asks about one; a step that fails
    changes nothing. What is logged is collected over the whole session.
-/

namespace Provisioning

/-! ### Slots -/

/-- The value in a slot. -/
inductive Slot
  | configuration (c : Configuration)
  | parcel (p : Parcel)

/-- The text form of the value. -/
def Slot.text : Slot → String
  | configuration c => toString c
  | parcel p => toString p

/-- The slots that are in use, by name. -/
abbrev Session := List (String × Slot)

namespace Session

/-- The session with a value in a slot, in the place of what was there. -/
def put (name : String) (slot : Slot) (s : Session) : Session :=
  (name, slot) :: s.filter (·.1 != name)

/-! ### Steps -/

/-- A list inside a configuration that can be edited at its end. -/
inductive ListName
  | addresses
  | routes
  | dnsServers
  | staticDnsServers
  | dhcpOptions
  | elements
  deriving DecidableEq, Repr

/-- A step of a session. -/
inductive Step
  /-- Stores the configuration in which nothing is set. -/
  | new (target : String)
  /-- Stores a configuration. -/
  | load (config : Json) (target : String)
  | loadYaml (text target : String)
  /-- Stores a parcel. -/
  | loadParcel (parcel : Json) (target : String)
  | loadParcelText (text target : String)
  | clone (slot target : String)
  | toStable (slot target : String)
  | fromStable (slot : String) (version : UInt32) (contract : WireContract) (target : String)
  /-- Sets a member, known by the name that it has in text. -/
  | set (slot field : String) (value : Json)
  /-- Adds an item at the end of a list. -/
  | push (slot : String) (list : ListName) (value : Json)
  /-- Removes the last item of a list. -/
  | pop (slot : String) (list : ListName)
  | compare (slot other : String)
  | show (slot : String)
  | validate (slot : String)
  | yaml (slot : String)
  | json (slot : String)

/-- What a step that succeeds answers. -/
inductive Answer
  | text (s : String)
  | valid
  /-- Whether two values are equal, asked both ways. -/
  | equal (forth back : Bool)
  deriving DecidableEq, Repr

/-- Why a step fails. -/
inductive StepError
  /-- A slot is not in use. -/
  | noSlot
  /-- The slot holds the other kind of value. -/
  | wrongSlot
  /-- The slot to compare with holds the other kind of value. -/
  | wrongOther
  /-- The list is part of a record that is absent, or absent itself. -/
  | absentList
  | emptyList
  | undecodable (cause : DecodeError)
  | failed (cause : Failure)

/-- What a step answers, or why it fails. -/
abbrev StepResult (α : Type) := Except StepError α

/-! ### Access -/

/-- The value in a slot. -/
def get (name : String) (s : Session) : StepResult Slot :=
  match s.lookup name with
  | some slot => .ok slot
  | none => .error .noSlot

/-- The configuration in a slot. -/
def configuration (name : String) (s : Session) : StepResult Configuration := do
  match ← s.get name with
  | .configuration c => return c
  | .parcel _ => .error .wrongSlot

/-- The parcel in a slot. -/
def parcel (name : String) (s : Session) : StepResult Parcel := do
  match ← s.get name with
  | .configuration _ => .error .wrongSlot
  | .parcel p => return p

/-- A decoded part of a request. -/
def decoded {α : Type} (r : Except DecodeError α) : StepResult α :=
  r.mapError .undecodable

/-- A result of the library. -/
def succeeded {α : Type} (r : Except Failure α) : StepResult α :=
  r.mapError .failed

/-- A record with one of its members set. -/
def setMember {ρ : Type} (schema : Schema ρ) (field : String) (value : Json) (r : ρ) :
    StepResult ρ :=
  match schema.field? field with
  | some f => decoded (f.decodeInto Json.partSource value r)
  | none => .error (.undecodable (.unknownField field schema.names))

/-! ### Lists -/

/-- How a list is edited. -/
structure Edit where
  apply : {α : Type} → Codec α → List α → StepResult (List α)

/-- Adds a decoded item at the end. -/
def Edit.push (value : Json) : Edit where
  apply c xs := do
    let x ← decoded (c.ofPart value)
    return xs ++ [x]

/-- Removes the last item. -/
def Edit.pop : Edit where
  apply _ xs := if xs.isEmpty then .error .emptyList else .ok xs.dropLast

/-- The record that a list belongs to. -/
def owner {α : Type} : Option α → StepResult α
  | some x => .ok x
  | none => .error .absentList

/-- Edits a list of a configuration. -/
def edit (e : Edit) (c : Configuration) : ListName → StepResult Configuration
  | .addresses => do
    let i ← owner c.initial?
    let xs ← e.apply .linkAddress i.addresses
    return { c with initial? := some { i with addresses := xs } }
  | .routes => do
    let i ← owner c.initial?
    let xs ← e.apply .ipPrefix i.routes
    return { c with initial? := some { i with routes := xs } }
  | .dnsServers => do
    let i ← owner c.initial?
    let xs ← e.apply .ipAddress i.dnsServers
    return { c with initial? := some { i with dnsServers := xs } }
  | .staticDnsServers => do
    let i ← owner c.staticIp?
    let xs ← e.apply .ipAddress i.dnsServers
    return { c with staticIp? := some { i with dnsServers := xs } }
  | .dhcpOptions => do
    let options ← owner c.dhcpOptions?
    let xs ← e.apply DhcpOption.schema.codec options
    return { c with dhcpOptions? := some xs }
  | .elements => do
    let r ← owner c.scanResult?
    let xs ← e.apply InformationElement.schema.codec r.elements
    return { c with scanResult? := some { r with elements := xs } }

/-! ### Running -/

/-- The result of a step that succeeds: the session behind it, the answer and the log. -/
structure Outcome where
  session : Session
  answer : Answer
  logs : List LogRecord

/-- Stores a value and answers its text form. -/
def store (s : Session) (target : String) (slot : Slot) (logs : List LogRecord) : Outcome :=
  ⟨s.put target slot, .text slot.text, logs⟩

/-- Answers without changing anything. -/
def reply (s : Session) (a : Answer) : Outcome :=
  ⟨s, a, []⟩

/-- Whether the values of two slots of one kind are equal. -/
def compareSlots : Slot → Slot → StepResult Answer
  | .configuration a, .configuration b => .ok (.equal (a == b) (b == a))
  | .parcel a, .parcel b => .ok (.equal (a = b) (b = a))
  | _, _ => .error .wrongOther

/-- Takes one step. -/
def step (s : Session) : Step → StepResult Outcome
  | .new target => return s.store target (.configuration .empty) []
  | .load config target => do
    let c ← decoded (Configuration.schema.codec.ofPart config)
    return s.store target (.configuration c) []
  | .loadYaml text target => do
    let c ← succeeded (Configuration.ofYaml text)
    return s.store target (.configuration c) []
  | .loadParcel value target => do
    let p ← decoded (Parcel.schema.codec.ofPart value)
    return s.store target (.parcel p) []
  | .loadParcelText text target => do
    let p ← succeeded (Parcel.ofJson text)
    return s.store target (.parcel p) []
  | .clone slot target => do
    let v ← s.get slot
    return s.store target v []
  | .toStable slot target => do
    let c ← s.configuration slot
    return s.store target (.parcel c.toParcel) []
  | .fromStable slot version contract target => do
    let p ← s.parcel slot
    return s.store target (.configuration (p.toConfiguration version contract))
      (p.receiptLogs version contract)
  | .set slot field value => do
    match ← s.get slot with
    | .configuration c =>
      let c ← setMember Configuration.schema field value c
      return s.store slot (.configuration c) []
    | .parcel p =>
      let p ← setMember Parcel.schema field value p
      return s.store slot (.parcel p) []
  | .push slot list value => do
    let c ← edit (.push value) (← s.configuration slot) list
    return s.store slot (.configuration c) []
  | .pop slot list => do
    let c ← edit .pop (← s.configuration slot) list
    return s.store slot (.configuration c) []
  | .compare slot other => do
    let a ← s.get slot
    let b ← s.get other
    return s.reply (← compareSlots a b)
  | .show slot => do
    let v ← s.get slot
    return s.reply (.text v.text)
  | .validate slot => do
    let c ← s.configuration slot
    succeeded (c.validate.mapError InitialConfigurationError.failure)
    return s.reply .valid
  | .yaml slot => do
    let c ← s.configuration slot
    return s.reply (.text c.toYaml)
  | .json slot => do
    let p ← s.parcel slot
    return s.reply (.text p.toJson)

/-- Takes steps in order; the results are one for each step. -/
def run (s : Session) : List Step → List (StepResult Answer) × List LogRecord
  | [] => ([], [])
  | t :: rest =>
    match s.step t with
    | .error e =>
      let r := run s rest
      (.error e :: r.1, r.2)
    | .ok o =>
      let r := run o.session rest
      (.ok o.answer :: r.1, o.logs ++ r.2)

end Session

end Provisioning
