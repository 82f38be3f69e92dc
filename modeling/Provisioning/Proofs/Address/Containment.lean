import Provisioning.Codec
import Provisioning.Proofs.Address.Mask

/-! # Which addresses a prefix holds

    An address is known by its family and its bits. A prefix is made by keeping the bits in front
    and clearing the others, and it is asked by masking an address and comparing. Here both are
    said in bits, counted from the front: which address the prefix has, and which addresses it
    holds. The family is part of every answer, so an IPv4 address and the IPv6 address that it is
    mapped to are never taken for each other.
-/

namespace Provisioning

/-! ### Bits of addresses -/

namespace IpAddress

/-- The address of the same family without any bits. -/
def zero : IpAddress → IpAddress
  | v4 _ => v4 0
  | v6 _ => v6 0

/-- The IPv6 address that an IPv4 address is mapped to: eighty zeros, sixteen ones and the bits of
the IPv4 address. -/
def mapped (x : BitVec 32) : IpAddress :=
  v6 ((0xffff : BitVec 96) ++ x)

/-- `b` has the first `n` bits of `a`, and zeros behind them. -/
structure IsLeading (n : Nat) (a b : IpAddress) : Prop where
  family : b.isIpv4 = a.isIpv4
  kept : ∀ i < n, b.leadingBit i = a.leadingBit i
  cleared : ∀ i, n ≤ i → b.leadingBit i = false

theorem width_eq_of_isIpv4_eq {a b : IpAddress} (h : a.isIpv4 = b.isIpv4) : a.width = b.width := by
  cases a <;> cases b <;> first | rfl | cases h

theorem leadingBit_zero (a : IpAddress) (i : Nat) : a.zero.leadingBit i = false := by
  cases a <;> simp [zero, leadingBit]

/-- Behind its last bit an address has none. -/
theorem leadingBit_of_width_le {a : IpAddress} {i : Nat} (hi : a.width ≤ i) :
    a.leadingBit i = false := by
  cases a with
  | v4 x => exact BitVec.getMsbD_of_ge x i hi
  | v6 x => exact BitVec.getMsbD_of_ge x i hi

/-- Addresses of one family with the same bits are the same. -/
theorem eq_of_leadingBit {a b : IpAddress} (hfamily : a.isIpv4 = b.isIpv4)
    (hbits : ∀ i, a.leadingBit i = b.leadingBit i) : a = b := by
  cases a with
  | v4 x =>
    cases b with
    | v4 y => exact congrArg v4 (BitVec.eq_of_getMsbD_eq fun i _ => hbits i)
    | v6 y => cases hfamily
  | v6 x =>
    cases b with
    | v4 y => cases hfamily
    | v6 y => exact congrArg v6 (BitVec.eq_of_getMsbD_eq fun i _ => hbits i)

/-- There is one address with the first bits of an address and no others. -/
theorem IsLeading.unique {n : Nat} {a b b' : IpAddress} (h : a.IsLeading n b)
    (h' : a.IsLeading n b') : b = b' := by
  apply eq_of_leadingBit
  · rw [h.family, h'.family]
  · intro i
    by_cases hi : i < n
    · rw [h.kept i hi, h'.kept i hi]
    · have hi : n ≤ i := by omega
      rw [h.cleared i hi, h'.cleared i hi]

/-- A mask keeps the first bits and no others. -/
theorem isLeading_mask {n : Nat} {a : IpAddress} (hn : n ≤ a.width) :
    a.IsLeading n (a.mask n) := by
  constructor
  · exact isIpv4_mask n a
  · intro i hi
    rw [leadingBit_mask hn, decide_eq_true hi, Bool.true_and]
  · intro i hi
    have hnot : ¬ i < n := by omega
    rw [leadingBit_mask hn, decide_eq_false hnot, Bool.false_and]

theorem isLeading_zero (a : IpAddress) : a.IsLeading 0 a.zero := by
  constructor
  · cases a <;> rfl
  · intro i hi
    exact absurd hi (Nat.not_lt_zero i)
  · intro i _
    exact a.leadingBit_zero i

theorem isLeading_self (a : IpAddress) : a.IsLeading a.width a := by
  constructor
  · rfl
  · intro i _
    rfl
  · intro i hi
    exact leadingBit_of_width_le hi

end IpAddress

/-! ### Prefixes -/

namespace IpPrefix

/-- An address without host bits and a length make out a prefix. -/
theorem ext_of_address {p q : IpPrefix} (haddress : p.address = q.address)
    (hlength : p.length = q.length) : p = q := by
  cases p
  cases q
  cases haddress
  cases hlength
  rfl

/-- A prefix holds the addresses of its family that agree with it on its bits. -/
theorem contains_iff (p : IpPrefix) (y : IpAddress) :
    p.contains y = true ↔
      y.isIpv4 = p.address.isIpv4 ∧
        ∀ i < p.length, y.leadingBit i = p.address.leadingBit i := by
  unfold contains
  rw [Bool.and_eq_true, beq_iff_eq, beq_iff_eq]
  constructor
  · rintro ⟨hfamily, hmask⟩
    have hle : p.length ≤ y.width := by
      rw [IpAddress.width_eq_of_isIpv4_eq hfamily]
      exact p.length_le
    refine ⟨hfamily, ?_⟩
    intro i hi
    rw [← hmask]
    exact ((IpAddress.isLeading_mask hle).kept i hi).symm
  · rintro ⟨hfamily, hbits⟩
    have hle : p.length ≤ y.width := by
      rw [IpAddress.width_eq_of_isIpv4_eq hfamily]
      exact p.length_le
    -- The address of the prefix has no further bits, so it is the masked address.
    have hleading : y.IsLeading p.length p.address := by
      constructor
      · exact hfamily.symm
      · intro i hi
        exact (hbits i hi).symm
      · intro i hi
        exact IpAddress.leadingBit_of_mask_eq p.length_le p.masked hi
    exact ⟨hfamily, (IpAddress.isLeading_mask hle).unique hleading⟩

/-- An address is held by prefixes of its own family only. -/
theorem contains_eq_false_of_isIpv4_ne {p : IpPrefix} {y : IpAddress}
    (h : y.isIpv4 ≠ p.address.isIpv4) : p.contains y = false := by
  apply Bool.eq_false_iff.mpr
  intro hcontains
  exact h ((p.contains_iff y).mp hcontains).1

/-- A prefix that is made of an address has its bits and holds what agrees with it on them. -/
theorem exists_make_eq {x : IpAddress} {n : Nat} (hn : n ≤ x.width) :
    ∃ p, make x n = .ok p ∧ p.length = n ∧ x.IsLeading n p.address ∧
      ∀ y, p.contains y = true ↔
        y.isIpv4 = x.isIpv4 ∧ ∀ i < n, y.leadingBit i = x.leadingBit i := by
  have hleading := IpAddress.isLeading_mask hn
  refine ⟨⟨x.mask n, n, by simpa using hn, IpAddress.mask_mask n x⟩, ?_, rfl, hleading, ?_⟩
  · unfold make
    rw [dif_pos hn]
  · intro y
    rw [contains_iff]
    -- On its bits the prefix agrees with the address that it was made of.
    constructor
    · rintro ⟨hfamily, hbits⟩
      refine ⟨hfamily.trans hleading.family, ?_⟩
      intro i hi
      exact (hbits i hi).trans (hleading.kept i hi)
    · rintro ⟨hfamily, hbits⟩
      refine ⟨hfamily.trans hleading.family.symm, ?_⟩
      intro i hi
      exact (hbits i hi).trans (hleading.kept i hi).symm

/-- Masking and containment are exact to the bit. A prefix that is made of an address and a length
in its range has the first bits of the address and zeros behind them, which for the length zero is
the zero address and for the full length the address itself; it holds the addresses of the family
that agree with the address on these bits. A length out of range is refused, for a prefix and for a
link address alike. No prefix holds an IPv4 address in the place of the IPv6 address that it is
mapped to, nor the other way round. -/
theorem make_contains_bitwise (x : IpAddress) (n : Nat) :
    (n ≤ x.width → ∃ p, make x n = .ok p ∧ p.length = n ∧ x.IsLeading n p.address ∧
      (n = 0 → p.address = x.zero) ∧ (n = x.width → p.address = x) ∧
      ∀ y, p.contains y = true ↔
        y.isIpv4 = x.isIpv4 ∧ ∀ i < n, y.leadingBit i = x.leadingBit i) ∧
    (x.width < n → ∃ e, make x n = .error e ∧ LinkAddress.make x n = .error e ∧
      e.failure.kind = .invalidArgument) ∧
    ∀ (p : IpPrefix) (a : BitVec 32),
      (p.address.isIpv4 = true → p.contains (.mapped a) = false) ∧
      (p.address.isIpv4 = false → p.contains (.v4 a) = false) := by
  refine ⟨?_, ?_, ?_⟩
  · intro hn
    obtain ⟨p, hmake, hlength, hleading, hcontains⟩ := exists_make_eq hn
    -- There is one address only of which no bit is kept, and one of which all are.
    refine ⟨p, hmake, hlength, hleading, ?_, ?_, hcontains⟩
    · rintro rfl
      exact hleading.unique x.isLeading_zero
    · rintro rfl
      exact hleading.unique x.isLeading_self
  · intro hn
    have hnot : ¬ n ≤ x.width := by omega
    refine ⟨.lengthOutOfRange n x, ?_, ?_, rfl⟩
    · unfold make
      rw [dif_neg hnot]
    · unfold LinkAddress.make
      rw [dif_neg hnot]
  · intro p a
    constructor
    · intro hfamily
      apply contains_eq_false_of_isIpv4_ne
      rw [hfamily]
      exact Bool.false_ne_true
    · intro hfamily
      apply contains_eq_false_of_isIpv4_ne
      rw [hfamily]
      exact Bool.false_ne_true.symm

/-- A length in the middle of a byte, the default route, and a length that is too great for IPv4
only. -/
theorem make_contains_bitwise_boundaries :
    let x : IpAddress := .v6 0x20010db8ffff00000000000000000001
    let y : IpAddress := .v6 0x20010db8800000000000000000000000
    33 ≤ x.width ∧
      (∃ p, make x 33 = .ok p ∧ p.address = y ∧ p.contains y = true ∧
        p.contains (.v6 0x20010db87fffffffffffffffffffffff) = false) ∧
      (∃ p, make x 0 = .ok p ∧ p.address = .v6 0 ∧ p.contains x = true) ∧
      (IpAddress.v4 0xc0000201).width < 33 ∧
      ∃ e, make (.v4 0xc0000201) 33 = .error e ∧ e.failure.kind = .invalidArgument := by
  intro x y
  have hwide : 33 ≤ x.width := by decide
  have hnarrow : (IpAddress.v4 0xc0000201).width < 33 := by decide
  obtain ⟨p, hmake, hlength, hleading, -, -, hcontains⟩ := (make_contains_bitwise x 33).1 hwide
  obtain ⟨q, hmake', -, -, hzero, -, hcontains'⟩ := (make_contains_bitwise x 0).1 (Nat.zero_le _)
  obtain ⟨e, herror, -, hkind⟩ := (make_contains_bitwise (.v4 0xc0000201) 33).2.1 hnarrow
  have hy : x.IsLeading 33 y := IpAddress.isLeading_mask hwide
  refine ⟨hwide, ⟨p, hmake, hleading.unique hy, ?_, ?_⟩, ⟨q, hmake', hzero rfl, ?_⟩, hnarrow,
    e, herror, hkind⟩
  · exact (hcontains y).mpr (by decide)
  · apply Bool.eq_false_iff.mpr
    intro h
    -- The last bit of the prefix is the first in which the two differ.
    exact absurd (((hcontains _).mp h).2 32 (by decide)) (by decide)
  · exact (hcontains' x).mpr ⟨rfl, fun i hi => absurd hi (Nat.not_lt_zero i)⟩

end IpPrefix

end Provisioning
