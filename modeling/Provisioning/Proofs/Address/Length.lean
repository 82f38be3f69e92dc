import Provisioning.Proofs.Address.Mask
import Provisioning.Proofs.Address.Slash

/-! # Lengths as bytes

    A machine holds the length of a prefix in a byte and has the number of host bits by taking it
    from the width of the address, which must not go below zero. Here the values and the functions
    on them are written that way: a value is an address beside any byte, and `none` is a
    difference below zero.

    Main statements: a mask exists exactly where the length is in the range of the address
    (`mask?_eq`), and what can be made or read at all are the link addresses and prefixes of the
    library (`isLinkAddress_iff`, `isPrefix_iff`), for which every mask that is asked for exists.
-/

namespace Provisioning

/-! ### Masks -/

/-- The difference of two bytes, unless it is below zero. -/
def byteDifference? (a b : UInt8) : Option UInt8 :=
  if b ≤ a then some (a - b) else none

/-- A word moved to the left by `n` bits, unless that is its width or more. -/
def moveLeft? {w : Nat} (x : BitVec w) (n : UInt32) : Option (BitVec w) :=
  if n.toNat < w then some (x <<< n.toNat) else none

/-- The leading bits of a word, given its width and their number as bytes. -/
def keepLeading? {w : Nat} (width n : UInt8) (x : BitVec w) : Option (BitVec w) := do
  let host ← byteDifference? width n
  return x &&& (moveLeft? (BitVec.allOnes w) host.toUInt32).getD 0

/-- The address with the bits behind the leading `n` cleared. -/
def IpAddress.mask? (n : UInt8) : IpAddress → Option IpAddress
  | .v4 x => (keepLeading? 32 n x).map .v4
  | .v6 x => (keepLeading? 128 n x).map .v6

theorem keepLeading?_eq {w : Nat} {width : UInt8} (hwidth : width.toNat = w) (n : UInt8)
    (x : BitVec w) :
    keepLeading? width n x = if n.toNat ≤ w then some (keepLeading n.toNat x) else none := by
  unfold keepLeading? byteDifference?
  by_cases hle : n ≤ width
  · have hnat : n.toNat ≤ w := by
      rw [← hwidth]
      exact UInt8.le_iff_toNat_le.mp hle
    have hhost : (width - n).toUInt32.toNat = w - n.toNat := by
      rw [UInt8.toNat_toUInt32, UInt8.toNat_sub_of_le _ _ hle, hwidth]
    rw [if_pos hle, if_pos hnat]
    show some (x &&& (moveLeft? (BitVec.allOnes w) (width - n).toUInt32).getD 0) = _
    unfold moveLeft? keepLeading
    rw [hhost]
    by_cases hzero : w - n.toNat < w
    · rw [if_pos hzero]
      rfl
    · -- The length is zero: the whole word would be moved out, and nothing of it is kept.
      have hout : BitVec.allOnes w <<< (w - n.toNat) = 0#w :=
        BitVec.shiftLeft_eq_zero (by omega)
      rw [if_neg hzero, hout]
      rfl
  · have hnat : ¬ n.toNat ≤ w := by
      rw [← hwidth]
      exact fun h => hle (UInt8.le_iff_toNat_le.mpr h)
    rw [if_neg hle, if_neg hnat]
    rfl

/-- A mask exists where the length is in the range of the address, and nowhere else. -/
theorem IpAddress.mask?_eq (n : UInt8) (a : IpAddress) :
    a.mask? n = if n.toNat ≤ a.width then some (a.mask n.toNat) else none := by
  cases a with
  | v4 x =>
    rw [mask?, keepLeading?_eq (by decide)]
    by_cases h : n.toNat ≤ 32 <;> simp [h, width, mask]
  | v6 x =>
    rw [mask?, keepLeading?_eq (by decide)]
    by_cases h : n.toNat ≤ 128 <;> simp [h, width, mask]

/-! ### Values -/

/-- An address and a byte for the length, whether or not they go together. -/
structure Slashed where
  address : IpAddress
  length : UInt8
  deriving DecidableEq

namespace Slashed

/-- Whether a length is in the range of an address. -/
def check (address : IpAddress) (length : UInt8) : Except AddressError Unit :=
  if address.width < length.toNat then .error (.lengthOutOfRange length.toNat address)
  else .ok ()

/-- A link address. -/
def makeLink (address : IpAddress) (length : UInt8) : Except AddressError Slashed :=
  (check address length).map fun _ => ⟨address, length⟩

/-- A prefix, whose host bits are cleared. -/
def makePrefix? (address : IpAddress) (length : UInt8) : Option (Except AddressError Slashed) :=
  match check address length with
  | .error e => some (.error e)
  | .ok () => (address.mask? length).map fun masked => .ok ⟨masked, length⟩

/-- The parts of a text, the length as a byte. -/
def readParts (text : String) : Except AddressError (IpAddress × UInt8) :=
  (readSlash text).map fun parts => (parts.1, UInt8.ofNat parts.2)

/-- Reads a link address. -/
def readLink (text : String) : Except AddressError Slashed :=
  (readParts text).bind fun parts => makeLink parts.1 parts.2

/-- Reads a prefix. -/
def readPrefix? (text : String) : Option (Except AddressError Slashed) :=
  match readParts text with
  | .error e => some (.error e)
  | .ok parts => makePrefix? parts.1 parts.2

/-- Whether a prefix holds an address; the family is looked at before anything is masked. -/
def contains? (s : Slashed) (a : IpAddress) : Option Bool :=
  if a.isIpv4 == s.address.isIpv4 then (a.mask? s.length).map (· == s.address) else some false

/-- What can be made or read as a link address. -/
inductive IsLinkAddress : Slashed → Prop
  | made {address : IpAddress} {length : UInt8} {s : Slashed} :
      makeLink address length = .ok s → IsLinkAddress s
  | read {text : String} {s : Slashed} : readLink text = .ok s → IsLinkAddress s

/-- What can be made or read as a prefix. -/
inductive IsPrefix : Slashed → Prop
  | made {address : IpAddress} {length : UInt8} {s : Slashed} :
      makePrefix? address length = some (.ok s) → IsPrefix s
  | read {text : String} {s : Slashed} : readPrefix? text = some (.ok s) → IsPrefix s

end Slashed

/-! ### Values of the library -/

/-- A link address as it is held. -/
def LinkAddress.slashed (a : LinkAddress) : Slashed := ⟨a.address, UInt8.ofNat a.length⟩

/-- A prefix as it is held. -/
def IpPrefix.slashed (p : IpPrefix) : Slashed := ⟨p.address, UInt8.ofNat p.length⟩

theorem toNat_ofNat_of_le {n : Nat} (h : n ≤ 255) : (UInt8.ofNat n).toNat = n :=
  UInt8.toNat_ofNat_of_lt' (Nat.lt_succ_of_le h)

theorem toNat_ofNat_of_le_width {a : IpAddress} {n : Nat} (h : n ≤ a.width) :
    (UInt8.ofNat n).toNat = n := by
  have hwidth := a.width_le
  exact toNat_ofNat_of_le (by omega)

namespace Slashed

theorem check_eq (address : IpAddress) (length : UInt8) :
    check address length =
      if length.toNat ≤ address.width then .ok ()
      else .error (.lengthOutOfRange length.toNat address) := by
  unfold check
  by_cases h : length.toNat ≤ address.width
  · rw [if_neg (by omega), if_pos h]
  · rw [if_pos (by omega), if_neg h]

/-- Link addresses are made as the library makes them. -/
theorem makeLink_eq (address : IpAddress) (length : UInt8) :
    makeLink address length = (LinkAddress.make address length.toNat).map LinkAddress.slashed := by
  unfold makeLink LinkAddress.make
  rw [check_eq]
  by_cases h : length.toNat ≤ address.width
  · rw [if_pos h, dif_pos h]
    simp [Except.map, LinkAddress.slashed]
  · rw [if_neg h, dif_neg h]
    rfl

/-- Prefixes are made as the library makes them, and no difference is below zero. -/
theorem makePrefix?_eq (address : IpAddress) (length : UInt8) :
    makePrefix? address length =
      some ((IpPrefix.make address length.toNat).map IpPrefix.slashed) := by
  unfold makePrefix? IpPrefix.make
  rw [check_eq]
  by_cases h : length.toNat ≤ address.width
  · rw [if_pos h, dif_pos h]
    simp [IpAddress.mask?_eq, h, Except.map, IpPrefix.slashed]
  · rw [if_neg h, dif_neg h]
    rfl

/-- The library reads the same parts. -/
theorem readSlash_eq (text : String) :
    readSlash text = (readParts text).map fun parts => (parts.1, parts.2.toNat) := by
  unfold readParts
  cases hread : readSlash text with
  | error e => rfl
  | ok parts =>
    simp only [Except.map, toNat_ofNat_of_le (le_of_readSlash hread)]

/-- Link addresses are read as the library reads them. -/
theorem readLink_eq (text : String) :
    readLink text = (LinkAddress.ofString text).map LinkAddress.slashed := by
  unfold readLink LinkAddress.ofString
  rw [readSlash_eq]
  cases readParts text with
  | error e => rfl
  | ok parts => exact makeLink_eq parts.1 parts.2

/-- Prefixes are read as the library reads them, and no difference is below zero. -/
theorem readPrefix?_eq (text : String) :
    readPrefix? text = some ((IpPrefix.ofString text).map IpPrefix.slashed) := by
  unfold readPrefix? IpPrefix.ofString
  rw [readSlash_eq]
  cases readParts text with
  | error e => rfl
  | ok parts => exact makePrefix?_eq parts.1 parts.2

/-- A prefix holds what it holds in the library, and no difference is below zero: an address of
the other family, for which the length may be too great, is refused before it is masked. -/
theorem contains?_slashed (p : IpPrefix) (a : IpAddress) :
    p.slashed.contains? a = some (p.contains a) := by
  unfold contains? IpPrefix.contains IpPrefix.slashed
  simp only
  -- Within a family the width is that of the prefix, so its length is in the range.
  by_cases hfamily : (a.isIpv4 == p.address.isIpv4) = true
  · have hwidth : a.width = p.address.width := by
      cases a <;> cases hp : p.address <;> simp_all [IpAddress.isIpv4, IpAddress.width]
    have hbyte := toNat_ofNat_of_le_width p.length_le
    have hle : p.length ≤ a.width := by
      rw [hwidth]
      exact p.length_le
    simp [hfamily, IpAddress.mask?_eq, hbyte, hle]
  · simp [hfamily]

/-- What can be made or read as a link address is a link address of the library. -/
theorem isLinkAddress_iff (s : Slashed) : IsLinkAddress s ↔ ∃ a : LinkAddress, a.slashed = s := by
  constructor
  · intro h
    have hmap : ∀ r : Except AddressError LinkAddress, r.map LinkAddress.slashed = .ok s →
        ∃ a : LinkAddress, a.slashed = s := by
      intro r hr
      cases r with
      | error e => cases hr
      | ok a => exact ⟨a, Except.ok.inj hr⟩
    cases h with
    | made h =>
      rw [makeLink_eq] at h
      exact hmap _ h
    | read h =>
      rw [readLink_eq] at h
      exact hmap _ h
  · rintro ⟨a, rfl⟩
    have hmake : makeLink a.address (UInt8.ofNat a.length) = .ok a.slashed := by
      rw [makeLink_eq, toNat_ofNat_of_le_width a.length_le, a.make_self]
      rfl
    exact .made hmake

/-- A prefix is made again of its own parts. -/
theorem makePrefix?_slashed (p : IpPrefix) :
    makePrefix? p.slashed.address p.slashed.length = some (.ok p.slashed) := by
  show makePrefix? p.address (UInt8.ofNat p.length) = _
  rw [makePrefix?_eq, toNat_ofNat_of_le_width p.length_le, p.make_self]
  rfl

/-- What can be made or read as a prefix is a prefix of the library. -/
theorem isPrefix_iff (s : Slashed) : IsPrefix s ↔ ∃ p : IpPrefix, p.slashed = s := by
  constructor
  · intro h
    have hmap : ∀ r : Except AddressError IpPrefix, some (r.map IpPrefix.slashed) = some (.ok s) →
        ∃ p : IpPrefix, p.slashed = s := by
      intro r hr
      cases r with
      | error e => cases hr
      | ok p => exact ⟨p, Except.ok.inj (Option.some.inj hr)⟩
    cases h with
    | made h =>
      rw [makePrefix?_eq] at h
      exact hmap _ h
    | read h =>
      rw [readPrefix?_eq] at h
      exact hmap _ h
  · rintro ⟨p, rfl⟩
    exact .made (makePrefix?_slashed p)

end Slashed

end Provisioning
