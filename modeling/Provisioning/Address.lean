/-! # IP addresses

    An address is a word of 32 or of 128 bits. Masks keep the leading bits of a word; addresses
    are ordered by family first, IPv4 before IPv6, and by number within a family.
-/

namespace Provisioning

/-! ### Masks -/

/-- The word with the leading `n` of its bits kept and the others cleared. -/
def keepLeading {w : Nat} (n : Nat) (x : BitVec w) : BitVec w :=
  x &&& (BitVec.allOnes w <<< (w - n))

/-! ### Addresses -/

/-- An IPv4 or IPv6 address. -/
inductive IpAddress
  | v4 (bits : BitVec 32)
  | v6 (bits : BitVec 128)
  deriving DecidableEq, Repr

namespace IpAddress

/-- The number of bits of the address. -/
def width : IpAddress → Nat
  | v4 _ => 32
  | v6 _ => 128

/-- Whether this is an IPv4 address. -/
def isIpv4 : IpAddress → Bool
  | v4 _ => true
  | v6 _ => false

/-- Whether this is an IPv6 address. -/
def isIpv6 : IpAddress → Bool
  | v4 _ => false
  | v6 _ => true

/-- The address with the bits behind the leading `n` cleared. -/
def mask (n : Nat) : IpAddress → IpAddress
  | v4 x => v4 (keepLeading n x)
  | v6 x => v6 (keepLeading n x)

/-- Bit `i` of the address, counted from the front. -/
def leadingBit (i : Nat) : IpAddress → Bool
  | v4 x => x.getMsbD i
  | v6 x => x.getMsbD i

@[simp] theorem width_mask (n : Nat) (a : IpAddress) : (a.mask n).width = a.width := by
  cases a <;> rfl

@[simp] theorem isIpv4_mask (n : Nat) (a : IpAddress) : (a.mask n).isIpv4 = a.isIpv4 := by
  cases a <;> rfl

/-! ### Order -/

/-- IPv4 comes before IPv6, then the smaller number. -/
protected def compare : IpAddress → IpAddress → Ordering
  | v4 x, v4 y => Ord.compare x.toNat y.toNat
  | v4 _, v6 _ => .lt
  | v6 _, v4 _ => .gt
  | v6 x, v6 y => Ord.compare x.toNat y.toNat

instance : Ord IpAddress := ⟨IpAddress.compare⟩

/-! ### Groups

    An IPv6 address is written as eight groups of sixteen bits.
-/

/-- The sixteen-bit groups of a word of `n` groups, leading group first. -/
def groupsOf (n : Nat) (value : Nat) : List Nat :=
  (List.range n).map fun i => value >>> (16 * (n - 1 - i)) % 65536

/-- The word that a list of groups makes up. -/
def ofGroups (groups : List Nat) : BitVec 128 :=
  BitVec.ofNat 128 (groups.foldl (fun acc g => acc * 65536 + g) 0)

/-- The number that four bytes make up. -/
def ofOctets (a b c d : Nat) : BitVec 32 :=
  BitVec.ofNat 32 (((a * 256 + b) * 256 + c) * 256 + d)

end IpAddress

end Provisioning
