import Provisioning.Address.Slash
import Provisioning.Data
import Provisioning.MacAddress
import Provisioning.Mode

/-! # Codecs

    A codec of a type decodes its values from any source and encodes them as data. Records are
    described by a schema: their members in order, each with its name, its codec and what is
    done when it is missing or has nothing to say. Decoding and encoding both follow the schema,
    so the two cannot disagree about a name.
-/

namespace Provisioning

/-- How the values of a type are decoded and encoded. -/
structure Codec (τ : Type) : Type 1 where
  decode : {ν : Type} → Source ν → ν → Except DecodeError τ
  encode : τ → Datum

/-! ### Failures of single values -/

/-- The failure that an error of an address is reported as. -/
def AddressError.failure (e : AddressError) : Failure :=
  ⟨.invalidArgument, e.message⟩

/-- The failure that an error of a MAC address is reported as. -/
def MacError.failure (e : MacError) : Failure :=
  ⟨.invalidArgument, e.message⟩

/-- The failure that an error of a mode is reported as. -/
def ModeError.failure (e : ModeError) : Failure :=
  ⟨.invalidArgument, e.message⟩

namespace Codec

/-! ### Scalars -/

/-- Truth values. -/
def boolean : Codec Bool where
  decode src := src.want src.boolean? "a boolean"
  encode := .boolean

/-- Signed numbers of 32 bits. -/
def int32 : Codec Int32 where
  decode src v := (src.integer (-2147483648) 2147483647 "i32" v).map Int32.ofInt
  encode n := .integer n.toInt

/-- Unsigned numbers of 32 bits. -/
def uint32 : Codec UInt32 where
  decode src v := (src.integer 0 4294967295 "u32" v).map fun i => UInt32.ofNat i.toNat
  encode n := .integer n.toNat

/-- Bytes. -/
def byte : Codec UInt8 where
  decode src v := (src.integer 0 255 "u8" v).map fun i => UInt8.ofNat i.toNat
  encode b := .integer b.toNat

/-- Texts. -/
def text : Codec String where
  decode src := src.want src.text? "a string"
  encode := .text

/-- Values that travel as text, given how they are written and read. -/
def written {τ ε : Type} (print : τ → String) (read : String → Except ε τ)
    (failure : ε → Failure) : Codec τ where
  decode src v := do
    let s ← src.want src.text? "a string" v
    match read s with
    | .ok x => .ok x
    | .error e => .error (.refused (failure e))
  encode x := .text (print x)

/-- Addresses without a length. -/
def ipAddress : Codec IpAddress where
  decode src v := do
    let s ← src.want src.text? "IP address" v
    match IpAddress.ofString? s with
    | some a => .ok a
    | none => .error .badIpAddress
  encode a := .text (toString a)

/-- Addresses on a link. -/
def linkAddress : Codec LinkAddress :=
  written toString LinkAddress.ofString AddressError.failure

/-- Address blocks. -/
def ipPrefix : Codec IpPrefix :=
  written toString IpPrefix.ofString AddressError.failure

/-- MAC addresses. -/
def macAddress : Codec MacAddress :=
  written toString MacAddress.ofString MacError.failure

/-- Modes, by name. -/
def mode (μ : Type) [Mode μ] : Codec μ :=
  written Mode.text Mode.ofText ModeError.failure

/-! ### Lists and options -/

/-- Decodes every item, the first bad one deciding the error. -/
def decodeItems {τ ν : Type} (c : Codec τ) (src : Source ν) : List ν → Except DecodeError (List τ)
  | [] => .ok []
  | v :: vs => do
    let x ← c.decode src v
    let xs ← decodeItems c src vs
    return x :: xs

/-- Lists. -/
def list {τ : Type} (c : Codec τ) : Codec (List τ) where
  decode src v := do
    let items ← src.want src.items? "a sequence" v
    decodeItems c src items
  encode xs := .list (xs.map c.encode)

/-- Values that may be null. -/
def option {τ : Type} (c : Codec τ) : Codec (Option τ) where
  decode src v := do
    if ← src.isPresent v then return some (← c.decode src v) else return none
  encode
    | some x => c.encode x
    | none => .null

/-- Byte strings, as lists of bytes. -/
def bytes : Codec (List UInt8) :=
  list byte

end Codec

/-! ### Records -/

/-- A member of a record `ρ`. -/
structure Field (ρ : Type) : Type 1 where
  name : String
  {Value : Type}
  codec : Codec Value
  get : ρ → Value
  set : ρ → Value → ρ
  /-- Whether the member must be written. -/
  required : Bool := false
  /-- Which values are not written. -/
  omits : Value → Bool := fun _ => false

/-- The record with one of its members set to a decoded value. -/
def Field.decodeInto {ρ ν : Type} (f : Field ρ) (src : Source ν) (v : ν) (r : ρ) :
    Except DecodeError ρ :=
  match f.codec.decode src v with
  | .error e => .error e
  | .ok x => .ok (f.set r x)

/-- The description of a record. -/
structure Schema (ρ : Type) : Type 1 where
  /-- What messages call the record. -/
  title : String
  fields : List (Field ρ)
  /-- Whether members of other names are refused; else they are skipped. -/
  closed : Bool
  /-- The record with every member at its default. -/
  initial : ρ

namespace Schema

variable {ρ : Type} (s : Schema ρ)

/-- The names of the members. -/
def names : List String :=
  s.fields.map Field.name

/-- The member of a name. -/
def field? (name : String) : Option (Field ρ) :=
  s.fields.find? fun f => f.name == name

/-- Takes members in the order in which they are written; `seen` are the names so far. -/
def decodeMembers {ν : Type} (src : Source ν) :
    List (Except DecodeError String × ν) → (seen : List String) → ρ →
    Except DecodeError (ρ × List String)
  | [], seen, r => .ok (r, seen)
  | (name, v) :: rest, seen, r =>
    match name with
    | .error e => .error e
    | .ok name =>
      match s.field? name with
      | none =>
        if s.closed then .error (.unknownField name s.names)
        else decodeMembers src rest seen r
      | some f =>
        if seen.contains name then .error (.duplicateField name)
        else
          match f.decodeInto src v r with
          | .error e => .error e
          | .ok r => decodeMembers src rest (name :: seen) r

/-- The first required member that was not written. -/
def missing? (seen : List String) : Option String :=
  (s.fields.find? fun f => f.required && !seen.contains f.name).map Field.name

/-- What a list that is too short should have been. -/
def lengthExpected : String :=
  let n := s.fields.length
  s!"struct {s.title} with {n} element" ++ (if n = 1 then "" else "s")

/-- Takes the items of a list as the members in order; `done` of them are taken. -/
def decodePositions {ν : Type} (src : Source ν) (tooMany : DecodeError) :
    List (Field ρ) → (done : Nat) → List ν → ρ → Except DecodeError ρ
  | [], _, [], r => .ok r
  | [], _, _ :: _, _ => .error tooMany
  | f :: fs, done, [], r =>
    if f.required then .error (.wrongLength done s.lengthExpected)
    else decodePositions src tooMany fs (done + 1) [] r
  | f :: fs, done, v :: vs, r =>
    match f.decodeInto src v r with
    | .error e => .error e
    | .ok r => decodePositions src tooMany fs (done + 1) vs r

/-- Decodes a record. -/
def decode {ν : Type} (src : Source ν) (v : ν) : Except DecodeError ρ :=
  match src.members? v with
  | some members =>
    match s.decodeMembers src members [] s.initial with
    | .error e => .error e
    | .ok (r, seen) =>
      match s.missing? seen with
      | some name => .error (.missingField name)
      | none => .ok r
  | none =>
    match src.tooManyItems?, src.items? v with
    | some tooMany, some items =>
      s.decodePositions src (tooMany items.length) s.fields 0 items s.initial
    | _, _ => .error (src.mismatch v s!"struct {s.title}")

/-- The members of a record that are written. -/
def encodeFields (r : ρ) : List (Field ρ) → List (String × Datum)
  | [] => []
  | f :: fs =>
    if f.omits (f.get r) then encodeFields r fs
    else (f.name, f.codec.encode (f.get r)) :: encodeFields r fs

/-- The codec of a described record. -/
def codec : Codec ρ where
  decode src v := s.decode src v
  encode r := .record (encodeFields r s.fields)

end Schema

end Provisioning
