import Provisioning.Proofs.Address.Grammar
import Provisioning.Proofs.Codec

/-! # Canonical texts of addresses with a length

    An address has many spellings: zero groups of an IPv6 address may be left out or not, digits
    may be of either case, a length may have zeros in front. The text of a value is one of its
    spellings, and since it is read back it is the text of no other value. So reading a text and
    printing what was read picks the canonical one of all its spellings, and doing so once more
    changes nothing.

    What differs between the two kinds of value is when two texts are spellings of the same value.
    Of a link address all that is written counts; of a prefix the host bits do not.
-/

namespace Provisioning

/-! ### When texts stand for the same value -/

/-- An address and a length stand for the block of addresses that another address and length stand
for: they differ in host bits at most. -/
structure SameBlock (x y : IpAddress × Nat) : Prop where
  family : x.1.isIpv4 = y.1.isIpv4
  length : x.2 = y.2
  bits : ∀ i < x.2, x.1.leadingBit i = y.1.leadingBit i

/-- Values have canonical texts, `same` telling of two addresses with lengths whether they stand for
the same value. -/
structure CanonicalText {α : Type} [ToString α] (read : String → Except AddressError α)
    (same : IpAddress × Nat → IpAddress × Nat → Prop) : Prop where
  /-- Every value is read back from its text. -/
  reads_back : ∀ x : α, read (toString x) = .ok x
  /-- Different values have different texts. -/
  toString_eq_iff : ∀ x y : α, toString x = toString y ↔ x = y
  /-- What is printed of a text that was read is a text of the same value, and is printed again. -/
  settles : ∀ (s : String) (x : α), read s = .ok x →
    ∃ y, read (toString x) = .ok y ∧ y = x ∧ toString y = toString x
  /-- Texts are printed alike exactly if they are spellings of the same value. -/
  spellings : ∀ (s t : String) (a b : IpAddress) (n m : Nat), Written s a n → Written t b m →
    n ≤ a.width → m ≤ b.width →
    ∃ x y, read s = .ok x ∧ read t = .ok y ∧ (toString x = toString y ↔ same (a, n) (b, m))

section

variable {α : Type} [ToString α] {read : String → Except AddressError α}

/-- Texts are canonical if values are read back from them, and if two texts are read as the same
value exactly where `same` says so. -/
theorem canonicalText {same : IpAddress × Nat → IpAddress × Nat → Prop}
    (hback : ∀ x : α, read (toString x) = .ok x)
    (hsame : ∀ {s t : String} {a b : IpAddress} {n m : Nat}, Written s a n → Written t b m →
      n ≤ a.width → m ≤ b.width →
      ∃ x y, read s = .ok x ∧ read t = .ok y ∧ (x = y ↔ same (a, n) (b, m))) :
    CanonicalText read same where
  reads_back := hback
  toString_eq_iff _ _ := (Codec.injective_of_read_write hback).eq_iff
  settles _ x _ := ⟨x, hback x, rfl, rfl⟩
  spellings s t a b n m hs ht hn hm := by
    obtain ⟨x, y, hx, hy, hiff⟩ := hsame hs ht hn hm
    exact ⟨x, y, hx, hy, (Codec.injective_of_read_write hback).eq_iff.trans hiff⟩

end

/-! ### Link addresses and prefixes -/

/-- Of a link address all that is written counts. -/
theorem LinkAddress.exists_ofString_eq {s t : String} {a b : IpAddress} {n m : Nat}
    (hs : Written s a n) (ht : Written t b m) (hn : n ≤ a.width) (hm : m ≤ b.width) :
    ∃ x y, ofString s = .ok x ∧ ofString t = .ok y ∧ (x = y ↔ (a, n) = (b, m)) := by
  refine ⟨⟨a, n, hn⟩, ⟨b, m, hm⟩, ofString_eq_ok_iff.mpr hs, ofString_eq_ok_iff.mpr ht, ?_⟩
  rw [LinkAddress.mk.injEq, Prod.mk.injEq]

/-- Prefixes are the same if their addresses are made of ones that agree on the bits that count. -/
theorem IpPrefix.eq_iff_sameBlock {p q : IpPrefix} {a b : IpAddress}
    (hp : a.IsLeading p.length p.address) (hq : b.IsLeading q.length q.address) :
    p = q ↔ SameBlock (a, p.length) (b, q.length) := by
  constructor
  · intro h
    subst h
    refine ⟨hp.family.symm.trans hq.family, rfl, ?_⟩
    intro i hi
    show a.leadingBit i = b.leadingBit i
    rw [← hp.kept i hi, hq.kept i hi]
  · intro h
    have hlength : p.length = q.length := h.length
    rw [← hlength] at hq
    -- The address of `q` has the bits of `a` in front and no others, as that of `p` has.
    have hleading : a.IsLeading p.length q.address := by
      constructor
      · exact hq.family.trans h.family.symm
      · intro i hi
        rw [hq.kept i hi]
        exact (h.bits i hi).symm
      · exact hq.cleared
    exact ext_of_address (hp.unique hleading) hlength

/-- Of a prefix the host bits that are written do not count. -/
theorem IpPrefix.exists_ofString_eq {s t : String} {a b : IpAddress} {n m : Nat}
    (hs : Written s a n) (ht : Written t b m) (hn : n ≤ a.width) (hm : m ≤ b.width) :
    ∃ p q, ofString s = .ok p ∧ ofString t = .ok q ∧ (p = q ↔ SameBlock (a, n) (b, m)) := by
  obtain ⟨p, -, rfl, hp, -⟩ := exists_make_eq hn
  obtain ⟨q, -, rfl, hq, -⟩ := exists_make_eq hm
  exact ⟨p, q, ofString_eq_ok_iff.mpr ⟨a, hs, hn, hp⟩, ofString_eq_ok_iff.mpr ⟨b, ht, hm, hq⟩,
    eq_iff_sameBlock hp hq⟩

/-- The texts of link addresses and of prefixes are canonical. Each value is read back from its
text, and no two values share one. To read a text and print what was read settles on the text that
all spellings of the value share: for a link address those are the spellings of one address and one
length, for a prefix those of one length and of all addresses that agree on their first bits. -/
theorem texts_canonical :
    CanonicalText LinkAddress.ofString Eq ∧ CanonicalText IpPrefix.ofString SameBlock :=
  ⟨canonicalText LinkAddress.ofString_toString LinkAddress.exists_ofString_eq,
    canonicalText IpPrefix.ofString_toString IpPrefix.exists_ofString_eq⟩

/-- The host bits that are cleared change which run of zero groups is the longest. -/
example : (IpPrefix.ofString "2001:0:0:DB8:0:0:1:1/096").map toString = .ok "2001:0:0:db8::/96" ∧
    (LinkAddress.ofString "2001:0:0:DB8:0:0:1:1/096").map toString =
      .ok "2001::db8:0:0:1:1/96" := ⟨rfl, rfl⟩

end Provisioning
