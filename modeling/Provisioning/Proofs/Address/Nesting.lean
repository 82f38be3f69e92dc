import Provisioning.Proofs.Address.Containment
import Provisioning.Proofs.Numeral

/-! # Prefixes form a tree, and their order walks it

    A prefix covers another of its family if it is no longer and holds the address of the other.
    Said in bits, the shorter one is a beginning of the longer one; so of two prefixes that share
    an address one covers the other, and covering is the same as holding every address of the
    other.

    Said in numbers, the addresses of a prefix are an interval that starts with its own address.
    Prefixes are ordered by this first number, and by the length where it is the same. So a prefix
    comes before what it covers, and what comes between the two is covered as well: a sorted list
    is the tree written down from the root, each prefix followed by what is below it.
-/

namespace Provisioning

open Numeral (wordValues)

/-! ### Numbers of addresses -/

/-- Keeping the leading bits of a word rounds its number down to a multiple of what the bits behind
them can hold. -/
theorem toNat_keepLeading {w : Nat} (n : Nat) (x : BitVec w) :
    (keepLeading n x).toNat = x.toNat / wordValues (w - n) * wordValues (w - n) := by
  -- The leading bits are those that are left of a shift to the right and back.
  have hshift : keepLeading n x = (x >>> (w - n)) <<< (w - n) := by
    apply BitVec.eq_of_getLsbD_eq
    intro i hi
    unfold keepLeading
    simp only [BitVec.getLsbD_and, BitVec.getLsbD_shiftLeft, BitVec.getLsbD_allOnes,
      BitVec.getLsbD_ushiftRight]
    by_cases hlow : i < w - n
    · simp [hlow]
    · have hback : w - n + (i - (w - n)) = i := by omega
      have hone : i - (w - n) < w := by omega
      simp [hlow, hi, hback, hone]
  have hle : x.toNat / wordValues (w - n) * wordValues (w - n) ≤ x.toNat :=
    Nat.div_mul_le_self _ _
  rw [hshift, BitVec.toNat_shiftLeft, BitVec.toNat_ushiftRight, Nat.shiftRight_eq_div_pow,
    Nat.shiftLeft_eq]
  exact Nat.mod_eq_of_lt (Nat.lt_of_le_of_lt hle x.isLt)

namespace IpAddress

/-- The number that the bits of an address make up. -/
def number : IpAddress → Nat
  | v4 x => x.toNat
  | v6 x => x.toNat

theorem isIpv6_eq (a : IpAddress) : a.isIpv6 = !a.isIpv4 := by
  cases a <;> rfl

/-- Addresses of one family with the same number are the same. -/
theorem eq_of_number {a b : IpAddress} (hfamily : a.isIpv4 = b.isIpv4)
    (hnumber : a.number = b.number) : a = b := by
  cases a with
  | v4 x =>
    cases b with
    | v4 y => exact congrArg v4 (BitVec.eq_of_toNat_eq hnumber)
    | v6 y => cases hfamily
  | v6 x =>
    cases b with
    | v4 y => cases hfamily
    | v6 y => exact congrArg v6 (BitVec.eq_of_toNat_eq hnumber)

theorem number_mask (n : Nat) (a : IpAddress) :
    (a.mask n).number = a.number / wordValues (a.width - n) * wordValues (a.width - n) := by
  cases a with
  | v4 x => exact toNat_keepLeading n x
  | v6 x => exact toNat_keepLeading n x

/-- The address with ones behind the leading `n` bits. -/
def fill (n : Nat) : IpAddress → IpAddress
  | v4 x => v4 (x ||| BitVec.allOnes 32 >>> n)
  | v6 x => v6 (x ||| BitVec.allOnes 128 >>> n)

theorem isIpv4_fill (n : Nat) (a : IpAddress) : (a.fill n).isIpv4 = a.isIpv4 := by
  cases a <;> rfl

theorem leadingBit_fill (n : Nat) {a : IpAddress} {i : Nat} (hi : i < a.width) :
    (a.fill n).leadingBit i = (a.leadingBit i || decide (n ≤ i)) := by
  have hones : ∀ w, i < w → (BitVec.allOnes w >>> n).getMsbD i = decide (n ≤ i) := by
    intro w hw
    have hback : i - n < w := by omega
    rw [BitVec.getMsbD_ushiftRight, BitVec.getMsbD_allOnes]
    by_cases hin : n ≤ i
    · simp [hw, hback, hin, Nat.not_lt.mpr hin]
    · simp [hin, Nat.not_le.mp hin]
  cases a with
  | v4 x =>
    show (x ||| BitVec.allOnes 32 >>> n).getMsbD i = _
    rw [BitVec.getMsbD_or, hones 32 hi]
    rfl
  | v6 x =>
    show (x ||| BitVec.allOnes 128 >>> n).getMsbD i = _
    rw [BitVec.getMsbD_or, hones 128 hi]
    rfl

/-! ### Order of addresses -/

/-- Within a family addresses are ordered by number. -/
theorem compare_of_isIpv4_eq {a b : IpAddress} (h : a.isIpv4 = b.isIpv4) :
    compare a b = compare a.number b.number := by
  cases a <;> cases b <;> first | rfl | cases h

/-- Nothing but IPv4 addresses comes before an IPv4 address. -/
theorem isIpv4_of_isLE {a b : IpAddress} (h : (compare a b).isLE = true)
    (hb : b.isIpv4 = true) : a.isIpv4 = true := by
  cases a with
  | v4 x => rfl
  | v6 x =>
    cases b with
    | v4 y => exact absurd h Bool.false_ne_true
    | v6 y => cases hb

end IpAddress

namespace IpPrefix

/-! ### Covering -/

/-- `q` is no longer than `p`, of the same family, and holds the address of `p`. -/
structure Covers (q p : IpPrefix) : Prop where
  family : q.address.isIpv4 = p.address.isIpv4
  length_le : q.length ≤ p.length
  contains : q.contains p.address = true

variable {p q r : IpPrefix}

theorem contains_address (p : IpPrefix) : p.contains p.address = true :=
  p.contains_iff p.address |>.mpr ⟨rfl, fun _ _ => rfl⟩

theorem covers_refl (p : IpPrefix) : p.Covers p :=
  ⟨rfl, Nat.le_refl _, p.contains_address⟩

/-- Of two prefixes that share an address the shorter one covers the other. -/
theorem covers_of_common {a : IpAddress} (hle : q.length ≤ p.length)
    (hp : p.contains a = true) (hq : q.contains a = true) : q.Covers p := by
  obtain ⟨hfamilyp, hbitsp⟩ := (p.contains_iff a).mp hp
  obtain ⟨hfamilyq, hbitsq⟩ := (q.contains_iff a).mp hq
  have hfamily : p.address.isIpv4 = q.address.isIpv4 := hfamilyp.symm.trans hfamilyq
  refine ⟨hfamily.symm, hle, (q.contains_iff p.address).mpr ⟨hfamily, ?_⟩⟩
  -- On the bits of the shorter one both agree with the address that they share.
  intro i hi
  rw [← hbitsp i (by omega), hbitsq i hi]

/-- What a prefix covers holds no address that it does not hold itself. -/
theorem Covers.contains_of_contains (h : q.Covers p) {a : IpAddress}
    (ha : p.contains a = true) : q.contains a = true := by
  obtain ⟨hfamily, hbits⟩ := (p.contains_iff a).mp ha
  obtain ⟨-, hown⟩ := (q.contains_iff p.address).mp h.contains
  refine (q.contains_iff a).mpr ⟨hfamily.trans h.family.symm, ?_⟩
  intro i hi
  have hle := h.length_le
  rw [hbits i (by omega), hown i hi]

/-- A prefix whose addresses are all held by `q` is covered by `q`. -/
theorem covers_of_forall_contains (h : ∀ a, p.contains a = true → q.contains a = true) :
    q.Covers p := by
  have hown : q.contains p.address = true := h p.address p.contains_address
  have hle : q.length ≤ p.length := by
    -- Else the bit behind those of `p` would be fixed by `q`, but `p` holds an address with
    -- that bit and one without it.
    apply Nat.le_of_not_lt
    intro hlt
    have hwidth : q.address.width = p.address.width :=
      IpAddress.width_eq_of_isIpv4_eq ((q.contains_iff _).mp hown).1.symm
    have hbound : p.length < p.address.width := by
      have hq := q.length_le
      omega
    have hfill : p.contains (p.address.fill p.length) = true := by
      refine (p.contains_iff _).mpr ⟨IpAddress.isIpv4_fill _ _, ?_⟩
      intro i hi
      rw [IpAddress.leadingBit_fill _ (by omega)]
      simp [Nat.not_le.mpr hi]
    have hwith := ((q.contains_iff _).mp (h _ hfill)).2 p.length (by omega)
    have hwithout := ((q.contains_iff _).mp hown).2 p.length (by omega)
    have hclear := IpAddress.leadingBit_of_mask_eq p.length_le p.masked (Nat.le_refl p.length)
    rw [IpAddress.leadingBit_fill _ hbound] at hwith
    rw [hclear] at hwith hwithout
    simp [← hwithout] at hwith
  exact covers_of_common hle p.contains_address hown

/-! ### Intervals -/

/-- How many addresses a prefix holds. -/
def size (p : IpPrefix) : Nat :=
  wordValues (p.address.width - p.length)

/-- A prefix holds the addresses of its family from its own address on, as many as its size. -/
theorem contains_iff_number (p : IpPrefix) (a : IpAddress) :
    p.contains a = true ↔ a.isIpv4 = p.address.isIpv4 ∧
      p.address.number ≤ a.number ∧ a.number < p.address.number + p.size := by
  have hsize : 0 < p.size := Numeral.wordValues_pos _
  -- The number of the prefix is a multiple of its size, since the host bits are clear.
  have hmultiple : p.address.number / p.size * p.size = p.address.number := by
    have h := IpAddress.number_mask p.length p.address
    rw [p.masked] at h
    exact h.symm
  have hmask : a.isIpv4 = p.address.isIpv4 →
      (a.mask p.length = p.address ↔ a.number / p.size = p.address.number / p.size) := by
    intro hfamily
    have hnumber : (a.mask p.length).number = a.number / p.size * p.size := by
      rw [IpAddress.number_mask, IpAddress.width_eq_of_isIpv4_eq hfamily]
      rfl
    constructor
    · intro h
      rw [h, ← hmultiple] at hnumber
      exact (Nat.eq_of_mul_eq_mul_right hsize hnumber).symm
    · intro h
      apply IpAddress.eq_of_number
      · rw [IpAddress.isIpv4_mask, hfamily]
      · rw [hnumber, h, hmultiple]
  unfold contains
  rw [Bool.and_eq_true, beq_iff_eq, beq_iff_eq]
  refine and_congr_right fun hfamily => ?_
  rw [hmask hfamily, Nat.div_eq_iff hsize, hmultiple]
  omega

/-! ### Order of prefixes -/

/-- A prefix comes before those that the comparison does not find smaller. -/
instance : LE IpPrefix := leOfOrd

theorem le_def (p q : IpPrefix) : p ≤ q ↔ (compare p q).isLE = true := Iff.rfl

/-- Within a family prefixes are ordered by the number of their address, then by length. -/
theorem le_iff_of_isIpv4_eq (h : p.address.isIpv4 = q.address.isIpv4) :
    p ≤ q ↔ p.address.number < q.address.number ∨
      p.address.number = q.address.number ∧ p.length ≤ q.length := by
  rw [le_def]
  show ((compare p.address q.address).then (compare p.length q.length)).isLE = true ↔ _
  rw [Ordering.isLE_then_iff_or, IpAddress.compare_of_isIpv4_eq h, Nat.compare_eq_lt,
    Nat.compare_eq_eq, Nat.isLE_compare]

theorem isIpv4_of_le (h : p ≤ q) (hq : q.address.isIpv4 = true) : p.address.isIpv4 = true :=
  IpAddress.isIpv4_of_isLE (Ordering.isLE_left_of_isLE_then h) hq

/-- What lies between two prefixes of one family is of that family. -/
theorem isIpv4_eq_of_between (hfamily : q.address.isIpv4 = p.address.isIpv4) (hqr : q ≤ r)
    (hrp : r ≤ p) : q.address.isIpv4 = r.address.isIpv4 := by
  cases hr : r.address.isIpv4 with
  | true => exact isIpv4_of_le hqr hr
  | false =>
    cases hq : q.address.isIpv4 with
    | false => rfl
    | true =>
      have hp : p.address.isIpv4 = true := hfamily.symm.trans hq
      exact absurd (isIpv4_of_le hrp hp) (by simp [hr])

/-- Prefixes of which each comes before the other are the same. -/
theorem le_antisymm (hpq : p ≤ q) (hqp : q ≤ p) : p = q := by
  have hfamily : p.address.isIpv4 = q.address.isIpv4 := isIpv4_eq_of_between rfl hpq hqp
  rw [le_iff_of_isIpv4_eq hfamily] at hpq
  rw [le_iff_of_isIpv4_eq hfamily.symm] at hqp
  have haddress : p.address = q.address := IpAddress.eq_of_number hfamily (by omega)
  have hlength : p.length = q.length := by omega
  exact ext_of_address haddress hlength

/-- A prefix comes before what it covers. -/
theorem Covers.le (h : q.Covers p) : q ≤ p := by
  obtain ⟨-, hfrom, -⟩ := (q.contains_iff_number p.address).mp h.contains
  have hlength := h.length_le
  rw [le_iff_of_isIpv4_eq h.family]
  omega

/-- What comes between a prefix and one that it covers is covered as well. -/
theorem Covers.of_between (h : q.Covers p) (hqr : q ≤ r) (hrp : r ≤ p) : q.Covers r := by
  have hfamilyr : q.address.isIpv4 = r.address.isIpv4 := isIpv4_eq_of_between h.family hqr hrp
  have hfrom := (le_iff_of_isIpv4_eq hfamilyr).mp hqr
  have hto := (le_iff_of_isIpv4_eq (hfamilyr.symm.trans h.family)).mp hrp
  obtain ⟨-, -, hend⟩ := (q.contains_iff_number p.address).mp h.contains
  have hheld : q.contains r.address = true :=
    (q.contains_iff_number r.address).mpr ⟨hfamilyr.symm, by omega, by omega⟩
  refine ⟨hfamilyr, ?_, hheld⟩
  -- A shorter one would cover `q` and so come before it.
  apply Nat.le_of_not_lt
  intro hlt
  have hcovers : r.Covers q := covers_of_common (Nat.le_of_lt hlt) hheld r.contains_address
  obtain rfl := le_antisymm hqr hcovers.le
  exact Nat.lt_irrefl _ hlt

/-! ### Sorted lists -/

/-- Of what comes behind a prefix in a sorted list, the part that it covers comes first. -/
theorem exists_nested {behind : List IpPrefix} (hsorted : (q :: behind).Pairwise (· ≤ ·)) :
    ∃ nested others, behind = nested ++ others ∧ (∀ s ∈ nested, q.Covers s) ∧
      ∀ s ∈ others, ¬ q.Covers s := by
  induction behind with
  | nil => exact ⟨[], [], rfl, nofun, nofun⟩
  | cons r behind ih =>
    obtain ⟨hfirst, hrest⟩ := List.pairwise_cons.mp hsorted
    have hqr : q ≤ r := hfirst r List.mem_cons_self
    by_cases hr : q.Covers r
    · have hfewer : (q :: behind).Pairwise (· ≤ ·) :=
        List.pairwise_cons.mpr ⟨fun s hs => hfirst s (List.mem_cons_of_mem r hs), hrest.of_cons⟩
      obtain ⟨nested, others, rfl, hnested, hothers⟩ := ih hfewer
      exact ⟨r :: nested, others, rfl, List.forall_mem_cons.mpr ⟨hr, hnested⟩, hothers⟩
    · -- Nothing behind `r` is covered either, or `r` would lie between it and `q`.
      refine ⟨[], r :: behind, rfl, nofun, List.forall_mem_cons.mpr ⟨hr, ?_⟩⟩
      intro s hs hcovers
      have hrs : r ≤ s := (List.pairwise_cons.mp hrest).1 s hs
      exact hr (hcovers.of_between hqr hrs)

/-- Prefixes form a tree and their order walks it. A prefix covers another if and only if it holds
all its addresses; of two that share an address one covers the other; and one that covers another
comes before it, with nothing in between that it does not cover. So in a sorted list a prefix is
followed at once by all those of the list that it covers, but for copies of itself that come before
it. -/
theorem order_walks_tree (p q r : IpPrefix) :
    (q.Covers p ↔ ∀ a, p.contains a = true → q.contains a = true) ∧
    ((∃ a, p.contains a = true ∧ q.contains a = true) → p.Covers q ∨ q.Covers p) ∧
    (q.Covers p → q ≤ p ∧ (q ≤ r → r ≤ p → q.Covers r)) ∧
    ∀ before behind, (before ++ q :: behind).Pairwise (· ≤ ·) →
      (∃ nested others, behind = nested ++ others ∧ (∀ s ∈ nested, q.Covers s) ∧
        ∀ s ∈ others, ¬ q.Covers s) ∧
      ∀ s ∈ before, q.Covers s → s = q := by
  refine ⟨?_, ?_, ?_, ?_⟩
  · constructor
    · intro h a ha
      exact h.contains_of_contains ha
    · exact covers_of_forall_contains
  · rintro ⟨a, hp, hq⟩
    rcases Nat.le_total p.length q.length with hle | hle
    · exact .inl (covers_of_common hle hq hp)
    · exact .inr (covers_of_common hle hp hq)
  · intro h
    exact ⟨h.le, h.of_between⟩
  · intro before behind hsorted
    obtain ⟨-, hbehind, hacross⟩ := List.pairwise_append.mp hsorted
    refine ⟨exists_nested hbehind, ?_⟩
    intro s hs hcovers
    have hsq : s ≤ q := hacross s hs q List.mem_cons_self
    exact le_antisymm hsq hcovers.le

/-- A network, two of its own with the same and with a later address, and what lies around them in
a sorted list: the default routes of both families and the network behind. -/
theorem order_walks_tree_routes :
    let all : IpPrefix := ⟨.v4 0, 0, by decide, by decide⟩
    let q : IpPrefix := ⟨.v4 0x0a000000, 8, by decide, by decide⟩
    let r : IpPrefix := ⟨.v4 0x0a000000, 16, by decide, by decide⟩
    let p : IpPrefix := ⟨.v4 0x0a800000, 9, by decide, by decide⟩
    let next : IpPrefix := ⟨.v4 0x0b000000, 8, by decide, by decide⟩
    let allV6 : IpPrefix := ⟨.v6 0, 0, by decide, by decide⟩
    p.contains (.v4 0x0a800001) = true ∧ q.contains (.v4 0x0a800001) = true ∧
      (p.Covers q ∨ q.Covers p) ∧
      q.Covers p ∧ q ≤ r ∧ r ≤ p ∧ q.Covers r ∧
      ([all] ++ q :: [r, p, next, allV6]).Pairwise (· ≤ ·) ∧
      (∃ nested others, [r, p, next, allV6] = nested ++ others ∧ (∀ s ∈ nested, q.Covers s) ∧
        ∀ s ∈ others, ¬ q.Covers s) ∧
      ∀ s ∈ [all], q.Covers s → s = q := by
  intro all q r p next allV6
  have hp : p.contains (.v4 0x0a800001) = true := by decide
  have hq : q.contains (.v4 0x0a800001) = true := by decide
  have hcovers : q.Covers p := ⟨by decide, by decide, by decide⟩
  have hqr : q ≤ r := by decide
  have hrp : r ≤ p := by decide
  have hsorted : ([all] ++ q :: [r, p, next, allV6]).Pairwise (· ≤ ·) := by decide
  obtain ⟨-, hnested, hbetween, hlist⟩ := order_walks_tree p q r
  exact ⟨hp, hq, hnested ⟨_, hp, hq⟩, hcovers, hqr, hrp, (hbetween hcovers).2 hqr hrp, hsorted,
    hlist [all] _ hsorted⟩

end IpPrefix

end Provisioning
