import Provisioning.Decimal.Nearest
import Provisioning.Yaml

/-! # What YAML scalars denote

    A plain scalar without a tag denotes nothing, a truth value, an integer, a floating point
    number or else a text, whichever comes first in this order. Integers may be written in four
    radices. Decimal digits with a zero in front of others are no number but a text.

    The tags of the core types ask for one of these and are errors if it cannot be had. A tag of
    the text's own leaves a plain scalar what it is; under any other tag, and in quotes or as a
    block, a scalar is a text.
-/

namespace Provisioning.Yaml

/-! ### Words -/

/-- Whether a plain scalar is a word for nothing. -/
def isNull (s : String) : Bool :=
  s == "null" || s == "Null" || s == "NULL" || s == "~"

/-- The truth value that a plain scalar is a word for. -/
def truth? (s : String) : Option Bool :=
  if s = "true" ∨ s = "True" ∨ s = "TRUE" then some true
  else if s = "false" ∨ s = "False" ∨ s = "FALSE" then some false
  else none

/-! ### Integers -/

/-- A text without the plus sign in front. -/
def dropPlus : List Char → List Char
  | '+' :: cs => cs
  | cs => cs

/-- Whether a text starts with a sign. -/
def startsSigned : List Char → Bool
  | '+' :: _ | '-' :: _ => true
  | _ => false

/-- Whether a text consists of decimal digits, behind at most one sign, with a zero in front of
others. -/
def hasIdleZero (cs : List Char) : Bool :=
  match if startsSigned cs then cs.drop 1 else cs with
  | '0' :: d :: rest => (d :: rest).all Decimal.isDigit
  | _ => false

/-- The radix that the start of a text sets, and the digits behind it. -/
def radixDigits? : List Char → Option (Nat × List Char)
  | '0' :: 'x' :: digits => some (16, digits)
  | '0' :: 'o' :: digits => some (8, digits)
  | '0' :: 'b' :: digits => some (2, digits)
  | _ => none

/-- The number that digits without sign stand for, up to `limit`. -/
def magnitude? (radix limit : Nat) (digits : List Char) : Option Nat :=
  (Numeral.readMagnitude radix limit digits).toOption

/-- A number without sign, or with a plus sign, below `2 ^ bits`. -/
def unsigned? (bits : Nat) (cs : List Char) : Option Int :=
  let limit := Numeral.wordValues bits - 1
  match radixDigits? (dropPlus cs) with
  | some (radix, digits) => (magnitude? radix limit digits).map Int.ofNat
  | none =>
    if hasIdleZero cs then none else (magnitude? 10 limit (dropPlus cs)).map Int.ofNat

/-- A number with a minus sign, or a decimal one with any sign, that fits a word of `bits`. -/
def negative? (bits : Nat) (cs : List Char) : Option Int :=
  let bound := Numeral.wordValues (bits - 1)
  match cs with
  | '-' :: '0' :: c :: rest =>
    match radixDigits? ('0' :: c :: rest) with
    | some (radix, digits) => (magnitude? radix bound digits).map fun n => -(n : Int)
    | none => if hasIdleZero cs then none else (Numeral.readInt 10 bound cs).toOption
  | _ => if hasIdleZero cs then none else (Numeral.readInt 10 bound cs).toOption

/-- A number with or without sign that fits a word of `bits`. -/
def signed? (bits : Nat) (cs : List Char) : Option Int :=
  if startsSigned cs && startsSigned (cs.drop 1) then none
  else
    match radixDigits? (dropPlus cs) with
    | some (radix, digits) =>
      (magnitude? radix (Numeral.wordValues (bits - 1) - 1) digits).map Int.ofNat
    | none => negative? bits cs

/-! ### Floating point numbers -/

/-- A floating point number, or a word for infinity or for what is not a number. -/
def float? (cs : List Char) : Option Float :=
  let isInfinity (cs : List Char) : Bool :=
    [".inf", ".Inf", ".INF"].contains (String.ofList cs)
  if startsSigned cs && startsSigned (cs.drop 1) then none
  else if isInfinity (dropPlus cs) then some (Float.ofBits 0x7ff0000000000000)
  else if cs.head? = some '-' ∧ isInfinity (cs.drop 1) then
    some (Float.ofBits 0xfff0000000000000)
  else if [".nan", ".NaN", ".NAN"].contains (String.ofList cs) then
    some (Float.ofBits 0x7ff8000000000000)
  else Decimal.read? (dropPlus cs)

/-! ### Meanings -/

/-- What a scalar denotes. -/
inductive Meaning
  | nothing
  | boolean (b : Bool)
  | integer (i : Int)
  /-- An integer that does not fit 64 bits but does fit 128. -/
  | wideInteger (i : Int)
  | float (x : Float)
  | text (s : String)

/-- The integer that a plain scalar denotes. -/
def integerMeaning? (cs : List Char) : Option Meaning :=
  (((unsigned? 64 cs).or (negative? 64 cs)).map .integer).or
    (((unsigned? 128 cs).or (negative? 128 cs)).map .wideInteger)

/-- What a plain scalar without a tag denotes. -/
def plainMeaning (s : String) : Meaning :=
  let cs := s.toList
  if cs.isEmpty || isNull s then .nothing
  else
    match truth? s with
    | some b => .boolean b
    | none =>
      match integerMeaning? cs with
      | some m => m
      | none =>
        if hasIdleZero cs then .text s
        else
          match float? cs with
          | some x => .float x
          | none => .text s

/-! ### Tags -/

/-- The tags that ask for one of the core types. -/
inductive CoreTag
  | boolean
  | integer
  | float
  | null
  deriving DecidableEq, Repr

/-- The core type that a tag asks for. -/
def coreTag? (tag : String) : Option CoreTag :=
  if tag = "tag:yaml.org,2002:bool" then some .boolean
  else if tag = "tag:yaml.org,2002:int" then some .integer
  else if tag = "tag:yaml.org,2002:float" then some .float
  else if tag = "tag:yaml.org,2002:null" then some .null
  else none

/-- What a core type is called where a scalar is not of it. -/
def CoreTag.expected : CoreTag → String
  | .boolean => "a boolean"
  | .integer => "an integer"
  | .float => "a float"
  | .null => "null"

/-- The meaning of a scalar that is to be of a core type. -/
def CoreTag.meaning? (s : String) : CoreTag → Option Meaning
  | .boolean => (truth? s).map .boolean
  | .integer => integerMeaning? s.toList
  | .float => (float? s.toList).map .float
  | .null => if isNull s then some .nothing else none

/-- Whether a tag is of the text's own making. -/
def isLocalTag (tag : String) : Bool :=
  tag.toList.head? == some '!'

/-- What a scalar denotes, or the core type that it should be of and is not. -/
def meaning (tag? : Option String) (s : String) (style : ScalarStyle) : Except CoreTag Meaning :=
  let untagged := if style = .plain then plainMeaning s else .text s
  match tag? with
  | none => .ok untagged
  | some tag =>
    match coreTag? tag with
    | some t =>
      match t.meaning? s with
      | some m => .ok m
      | none => .error t
    | none => .ok (if isLocalTag tag then untagged else .text s)

end Provisioning.Yaml
