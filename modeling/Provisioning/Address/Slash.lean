import Provisioning.Address.Text

/-! # Addresses with a length

    The `address/length` form, and the two kinds of value that it stands for. A `LinkAddress` is
    an address on a link together with the length of the link's prefix. An `IpPrefix` is a block
    of addresses: those that share its leading bits; the host bits of its own address are clear.

    Both are read by one reader and refuse the same texts for the same reason. Of several faults
    the first in this order is reported: no separator, a bad address, a length that is no number,
    a length out of the range of the address.
-/

namespace Provisioning

/-- Why a text or a pair is not an address with a length. -/
inductive AddressError
  | noSeparator (text : String)
  | badAddress
  | badLength (digits text : String) (cause : NumeralError)
  | lengthOutOfRange (length : Nat) (address : IpAddress)
  deriving DecidableEq, Repr

/-- The wording of an error. -/
def AddressError.message : AddressError → String
  | .noSeparator text => s!"Invalid address {text}, expecting format like ip/prefix"
  | .badAddress => "Invalid IP address: invalid IP address syntax"
  | .badLength digits text cause => s!"Invalid prefix length {digits} in {text}: {cause.message}"
  | .lengthOutOfRange length address =>
    s!"Invalid network prefix length '{length}' for {address}, " ++
      s!"should be in the range of 0 to {address.width}"

/-- The parts of a text before and behind the first `c`. -/
def splitAtChar (c : Char) : List Char → Option (List Char × List Char)
  | [] => none
  | d :: rest =>
    if d = c then some ([], rest)
    else (splitAtChar c rest).map fun parts => (d :: parts.1, parts.2)

/-- Reads an address and a length from zero to 255 with a slash between them. -/
def readSlash (s : String) : Except AddressError (IpAddress × Nat) :=
  match splitAtChar '/' s.toList with
  | none => .error (.noSeparator s)
  | some (ip, digits) =>
    match IpAddress.ofChars? ip with
    | none => .error .badAddress
    | some address =>
      match Numeral.readNat 10 255 digits with
      | .error cause => .error (.badLength (String.ofList digits) s cause)
      | .ok length => .ok (address, length)

/-- The text of an address and a length. -/
def slashChars (address : IpAddress) (length : Nat) : List Char :=
  address.toChars ++ '/' :: Numeral.decimal length

/-! ### Link addresses -/

/-- An address on a link, with the length of the link's prefix. -/
structure LinkAddress where
  address : IpAddress
  length : Nat
  length_le : length ≤ address.width
  deriving DecidableEq

namespace LinkAddress

/-- A link address, provided that the length is in the range of the address. -/
def make (address : IpAddress) (length : Nat) : Except AddressError LinkAddress :=
  if h : length ≤ address.width then .ok ⟨address, length, h⟩
  else .error (.lengthOutOfRange length address)

/-- Reads a link address. -/
def ofString (s : String) : Except AddressError LinkAddress := do
  let (address, length) ← readSlash s
  make address length

instance : ToString LinkAddress := ⟨fun a => String.ofList (slashChars a.address a.length)⟩

/-- By address, then by length. -/
instance : Ord LinkAddress :=
  ⟨fun a b => (compare a.address b.address).then (compare a.length b.length)⟩

end LinkAddress

/-! ### Prefixes -/

/-- A block of addresses: those that agree with `address` on the leading `length` bits. -/
structure IpPrefix where
  address : IpAddress
  length : Nat
  length_le : length ≤ address.width
  masked : address.mask length = address
  deriving DecidableEq

/-- Keeping the leading bits of a word a second time changes nothing. -/
theorem keepLeading_keepLeading {w : Nat} (n : Nat) (x : BitVec w) :
    keepLeading n (keepLeading n x) = keepLeading n x := by
  simp [keepLeading, BitVec.and_assoc]

theorem IpAddress.mask_mask (n : Nat) (a : IpAddress) : (a.mask n).mask n = a.mask n := by
  cases a <;> simp [IpAddress.mask, keepLeading_keepLeading]

namespace IpPrefix

/-- The block around an address, provided that the length is in the range of the address. -/
def make (address : IpAddress) (length : Nat) : Except AddressError IpPrefix :=
  if h : length ≤ address.width then
    .ok ⟨address.mask length, length, by simpa using h, IpAddress.mask_mask length address⟩
  else .error (.lengthOutOfRange length address)

/-- Reads a prefix; host bits of the written address are dropped. -/
def ofString (s : String) : Except AddressError IpPrefix := do
  let (address, length) ← readSlash s
  make address length

/-- Whether the block holds an address; blocks hold addresses of their own family only. -/
def contains (p : IpPrefix) (a : IpAddress) : Bool :=
  a.isIpv4 == p.address.isIpv4 && a.mask p.length == p.address

/-- Whether this is `::/0`. -/
def isIpv6DefaultRoute (p : IpPrefix) : Bool :=
  p.address.isIpv6 && p.length == 0

instance : ToString IpPrefix := ⟨fun p => String.ofList (slashChars p.address p.length)⟩

/-- By address, then by length. -/
instance : Ord IpPrefix :=
  ⟨fun a b => (compare a.address b.address).then (compare a.length b.length)⟩

end IpPrefix

end Provisioning
