import Provisioning.Data
import Provisioning.Decimal.Shortest
import Provisioning.Json.Parser

/-! # JSON as a source

    What a JSON value can be taken for. A value that denotes nothing can be taken for nothing.
    Records may also be written as arrays of their members; an item too many is reported
    differently in a value that was read from text of its own and in a part of another value.
-/

namespace Provisioning.Json

/-- How messages write floating point numbers: with an exponent below 10 ^ -5 and from 10 ^ 16
on, and of two equally near decimals the one with the even digit. -/
def floatStyle : Decimal.Style := ⟨some (-5, 15), .toEven⟩

/-- How messages speak of a value. -/
def found : Json → Option Found
  | null => some (.nothing "null")
  | boolean b => some (.boolean b)
  | number (.integer i) => some (.integer i)
  | number (.float x) => some (.float (floatStyle.text x))
  | string s => some (.string s)
  | array _ => some .sequence
  | object _ => some .map
  | meaningless => none

/-- The name of a member, which must denote a text. -/
def memberName : Option String → Except DecodeError String
  | some name => .ok name
  | none => .error .malformed

/-- JSON values, given the complaint about an array with more items than a record has members. -/
def source (tooManyItems : Nat → DecodeError) : Source Json where
  boolean?
    | boolean b => some b
    | _ => none
  integer? _
    | number (.integer i) => some i
    | _ => none
  text?
    | string s => some s
    | _ => none
  items?
    | array items => some items
    | _ => none
  members?
    | object members => some (members.map fun m => (memberName m.1, m.2))
    | _ => none
  isPresent
    | null => .ok false
    | _ => .ok true
  mismatch j expected :=
    match found j with
    | some f => .wrongType f expected
    | none => .malformed
  tooManyItems? := some tooManyItems

/-- Values read from text. -/
def textSource : Source Json :=
  source fun _ => .trailingItems

/-- Values inside others. -/
def partSource : Source Json :=
  source fun n => .wrongLength n "fewer elements in array"

/-- The value of a text. -/
def ofText (s : String) : Except DecodeError Json :=
  match parse? s with
  | some j => .ok j
  | none => .error .malformed

/-- Whether a text can be read as a whole, without knowing what it is to be. -/
def isSoundText (s : String) : Bool :=
  match parse? s with
  | some j => j.isSound
  | none => false

end Provisioning.Json
