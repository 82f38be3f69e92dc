import Provisioning.Data
import Provisioning.Decimal.Shortest
import Provisioning.Yaml.Scalar

/-! # YAML as a source

    What a YAML value can be taken for. Any scalar can be taken for a text. Truth values and
    integers must be plain, or literal blocks under the tag of the type. A plain scalar without
    characters can also be taken for a collection without items, and what denotes nothing in
    plain style for a value that is left out.
-/

namespace Provisioning.Yaml

/-- How messages write floating point numbers: never with an exponent, and of two equally near
decimals the greater one. -/
def floatStyle : Decimal.Style := ⟨none, .up⟩

/-- How messages speak of a meaning. -/
def Meaning.found : Meaning → Found
  | .nothing => .nothing "unit value"
  | .boolean b => .boolean b
  | .integer i => .integer i
  | .wideInteger i => .wideInteger i
  | .float x => .float (floatStyle.text x)
  | .text s => .string s

/-- The complaint about a scalar that is not of the core type of its tag. -/
def CoreTag.complaint (s : String) (t : CoreTag) : DecodeError :=
  .wrongValue (.string s) t.expected

/-- The complaint about a value that is not what was expected. -/
def mismatch (v : Yaml) (expected : String) : DecodeError :=
  match v with
  | .scalar tag? s style =>
    match meaning tag? s style with
    | .ok m => .wrongType m.found expected
    | .error t => t.complaint s
  | .sequence _ _ => .wrongType .sequence expected
  | .mapping _ _ => .wrongType .map expected

/-- The text of a scalar whose style and tag allow it to be taken for a value of a core type. -/
def coreText? (t : CoreTag) : Yaml → Option String
  | .scalar _ s .plain => some s
  | .scalar (some tag) s .literal => if coreTag? tag = some t then some s else none
  | _ => none

/-- Whether there is a value where one may be left out. -/
def isPresent : Yaml → Except DecodeError Bool
  | .scalar none s .plain => .ok (!s.isEmpty && !isNull s)
  | .scalar (some tag) s .plain =>
    if coreTag? tag = some .null then
      if isNull s then .ok false else .error (CoreTag.complaint s .null)
    else .ok true
  | _ => .ok true

/-- The name of a member, which must be a scalar. -/
def memberName : Yaml → Except DecodeError String
  | .scalar _ s _ => .ok s
  | v => .error (mismatch v "field identifier")

/-- YAML values as a source. -/
def source : Source Yaml where
  boolean? v := (coreText? .boolean v).bind truth?
  integer? signed v :=
    (coreText? .integer v).bind fun s =>
      if signed then signed? 64 s.toList else unsigned? 64 s.toList
  text?
    | .scalar _ s _ => some s
    | _ => none
  items?
    | .sequence _ items => some items
    | .scalar _ "" .plain => some []
    | _ => none
  members?
    | .mapping _ members => some (members.map fun m => (memberName m.1, m.2))
    | .scalar _ "" .plain => some []
    | _ => none
  isPresent := isPresent
  mismatch := mismatch
  tooManyItems? := none

/-- The value of a text. -/
def ofText (s : String) : Except DecodeError Yaml :=
  match parse? s with
  | some v => .ok v
  | none => .error .malformed

end Provisioning.Yaml
