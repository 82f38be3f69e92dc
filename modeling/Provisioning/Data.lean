import Provisioning.Failure
import Provisioning.Text

/-! # Data

    What the library writes as text is made of data first: both JSON and YAML text are printed from
    a `Datum`. What it reads comes through a `Source`, a form in which values arrive, which says
    what a value of the form can be taken for. The decoders of the library are written once against
    this interface and serve every form. A `DecodeError` is a cause for which a value is refused.
-/

namespace Provisioning

/-! ### Values to be written -/

/-- Nothing, a truth value, an integer, a text, a list, or a record whose members have names and an
order. -/
inductive Datum
  | null
  | boolean (b : Bool)
  | integer (i : Int)
  | text (s : String)
  | list (items : List Datum)
  | record (members : List (String × Datum))
  deriving Inhabited, Repr

namespace Datum

/-- A list of texts. -/
def texts (xs : List String) : Datum :=
  .list (xs.map .text)

end Datum

/-! ### Causes -/

/-- What a decoder found in the place of what it expected. -/
inductive Found
  | boolean (b : Bool)
  | integer (i : Int)
  /-- An integer of more than 64 bits. -/
  | wideInteger (i : Int)
  /-- A floating point number, as text. -/
  | float (text : String)
  | string (s : String)
  /-- No value, under the name that the form has for it. -/
  | nothing (name : String)
  | sequence
  | map
  deriving Repr

/-- How messages speak of what was found. -/
def Found.message : Found → String
  | .boolean b => s!"boolean `{b}`"
  | .integer i => s!"integer `{i}`"
  | .wideInteger i => s!"integer `{i}` as " ++ (if i < 0 then "i128" else "u128")
  | .float text => s!"floating point `{text}`"
  | .string s => "string " ++ Text.quoted s
  | .nothing name => name
  | .sequence => "sequence"
  | .map => "map"

/-- Why a value is refused. -/
inductive DecodeError
  /-- The value is of another type. -/
  | wrongType (found : Found) (expected : String)
  /-- The value is of the type but not in its range. -/
  | wrongValue (found : Found) (expected : String)
  | missingField (name : String)
  | duplicateField (name : String)
  | unknownField (name : String) (known : List String)
  | unknownVariant (name : String) (known : List String)
  /-- A list with an item too few or too many. -/
  | wrongLength (length : Nat) (expected : String)
  /-- A list from text with an item too many. -/
  | trailingItems
  /-- The value was read but its content was refused. -/
  | refused (cause : Failure)
  | badIpAddress
  /-- The text has not the form that was to be read. -/
  | malformed
  deriving Repr

/-- Names for a message, each between backticks. -/
def oneOf : List String → String
  | [] => "nothing"
  | [a] => s!"`{a}`"
  | [a, b] => s!"`{a}` or `{b}`"
  | names => "one of " ++ String.intercalate ", " (names.map fun n => s!"`{n}`")

/-- The wording of a cause. -/
def DecodeError.message : DecodeError → String
  | .wrongType found expected => s!"invalid type: {found.message}, expected {expected}"
  | .wrongValue found expected => s!"invalid value: {found.message}, expected {expected}"
  | .missingField name => s!"missing field `{name}`"
  | .duplicateField name => s!"duplicate field `{name}`"
  | .unknownField name known => s!"unknown field `{name}`, expected {oneOf known}"
  | .unknownVariant name known => s!"unknown variant `{name}`, expected {oneOf known}"
  | .wrongLength length expected => s!"invalid length {length}, expected {expected}"
  | .trailingItems => "trailing characters"
  | .refused cause => toString cause
  | .badIpAddress => "invalid IP address syntax"
  | .malformed => "malformed text"

/-! ### Sources -/

/-- A form in which values arrive, `ν` being the type of its values. -/
structure Source (ν : Type) where
  /-- The value as a truth value. -/
  boolean? : ν → Option Bool
  /-- The value as an integer, where a form tells apart whether a sign is wanted. -/
  integer? : (signed : Bool) → ν → Option Int
  /-- The value as a text. -/
  text? : ν → Option String
  /-- The value as a list of values. -/
  items? : ν → Option (List ν)
  /-- The value as a list of named values; a name may be refused when it is reached. -/
  members? : ν → Option (List (Except DecodeError String × ν))
  /-- Whether there is a value, where one may be left out. -/
  isPresent : ν → Except DecodeError Bool
  /-- The complaint about a value that is not what was expected. -/
  mismatch : ν → (expected : String) → DecodeError
  /-- Where a record may be written as the list of its members: the complaint about a list of
  `length` items with more of them than the record has members. -/
  tooManyItems? : Option ((length : Nat) → DecodeError)

namespace Source

variable {ν : Type} (src : Source ν)

/-- What `take?` makes of a value, or the complaint that it was not the expected one. -/
def want {α : Type} (take? : ν → Option α) (expected : String) (v : ν) : Except DecodeError α :=
  match take? v with
  | some x => .ok x
  | none => .error (src.mismatch v expected)

/-- An integer from `least` to `greatest`. -/
def integer (least greatest : Int) (expected : String) (v : ν) : Except DecodeError Int := do
  let i ← src.want (src.integer? (least < 0)) expected v
  if least ≤ i ∧ i ≤ greatest then .ok i else .error (.wrongValue (.integer i) expected)

end Source

end Provisioning
