import Provisioning.Numeral

/-! # MAC addresses

    Six bytes, written as pairs of lower case hexadecimal digits with colons between them. Each
    of the six parts of a text is a hexadecimal numeral of two characters, in either case, so a
    part may also be a plus sign and one digit. The order is that of the bytes from the front.
-/

namespace Provisioning

/-- The number of bytes of a MAC address. -/
def macAddressLength : Nat := 6

/-- A hardware address of six bytes. -/
structure MacAddress where
  bytes : List UInt8
  length_eq : bytes.length = 6
  deriving DecidableEq

/-- Why a text or a list of bytes is not a MAC address. -/
inductive MacError
  | wrongLength (count : Nat)
  | malformed (text : String)
  deriving DecidableEq, Repr

/-- The wording of an error. -/
def MacError.message : MacError → String
  | .wrongLength count => s!"Invalid length of MAC address: {count} vs {macAddressLength}"
  | .malformed text =>
    s!"Invalid MAC address {text}, expecting format like 00:01:02:03:04:05"

namespace MacAddress

/-- The address made of the given bytes, of which there must be six. -/
def ofBytes (bytes : List UInt8) : Except MacError MacAddress :=
  if h : bytes.length = 6 then .ok ⟨bytes, h⟩ else .error (.wrongLength bytes.length)

/-! ### Reading -/

/-- The parts of a text between the separators; always one more than there are separators. -/
def splitOnChar (sep : Char) : List Char → List (List Char)
  | [] => [[]]
  | c :: rest =>
    if c = sep then [] :: splitOnChar sep rest
    else
      match splitOnChar sep rest with
      | [] => [[c]]
      | part :: parts => (c :: part) :: parts

/-- The byte that a hexadecimal numeral of exactly two characters stands for. -/
def pair? (part : List Char) : Option UInt8 :=
  if part.length = 2 then
    match Numeral.readNat 16 255 part with
    | .ok n => some (UInt8.ofNat n)
    | .error _ => none
  else none

/-- Reads an address. -/
def ofString (s : String) : Except MacError MacAddress :=
  match (splitOnChar ':' s.toList).mapM pair? with
  | none => .error (.malformed s)
  | some bytes => if h : bytes.length = 6 then .ok ⟨bytes, h⟩ else .error (.malformed s)

/-! ### Writing and order -/

/-- The text of a list of bytes with colons between them. -/
def byteChars : List UInt8 → List Char
  | [] => []
  | [b] => Numeral.hexPair b
  | b :: bs => Numeral.hexPair b ++ ':' :: byteChars bs

instance : ToString MacAddress := ⟨fun m => String.ofList (byteChars m.bytes)⟩

/-- The first byte that differs decides. -/
def compareBytes : List UInt8 → List UInt8 → Ordering
  | [], [] => .eq
  | [], _ :: _ => .lt
  | _ :: _, [] => .gt
  | a :: as, b :: bs => (compare a.toNat b.toNat).then (compareBytes as bs)

instance : Ord MacAddress := ⟨fun a b => compareBytes a.bytes b.bytes⟩

end MacAddress

end Provisioning
