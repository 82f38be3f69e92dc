import Provisioning.Address.Slash

/-! # Which bits a mask keeps

    A mask keeps the leading bits of a word and clears the others. So masks are compared bit by
    bit, counted from the front as the length of a prefix counts them.
-/

namespace Provisioning

/-- Behind the leading `n` bits all are clear. -/
theorem getMsbD_keepLeading {w n : Nat} (hn : n ≤ w) (x : BitVec w) (i : Nat) :
    (keepLeading n x).getMsbD i = (decide (i < n) && x.getMsbD i) := by
  unfold keepLeading
  rw [BitVec.getMsbD_and, BitVec.getMsbD_shiftLeft, BitVec.getMsbD_eq_getLsbD (BitVec.allOnes w),
    BitVec.getLsbD_allOnes]
  by_cases hi : i < n
  · have hin : i + (w - n) < w := by omega
    have hlow : w - 1 - (i + (w - n)) < w := by omega
    simp [hi, hin, hlow]
  · have hout : ¬ i + (w - n) < w := by omega
    simp [hi, hout]

namespace IpAddress

theorem leadingBit_mask {n : Nat} {a : IpAddress} (hn : n ≤ a.width) (i : Nat) :
    (a.mask n).leadingBit i = (decide (i < n) && a.leadingBit i) := by
  cases a with
  | v4 x => exact getMsbD_keepLeading hn x i
  | v6 x => exact getMsbD_keepLeading hn x i

/-- An address that a mask leaves as it is has no bits behind it. -/
theorem leadingBit_of_mask_eq {n : Nat} {a : IpAddress} (hn : n ≤ a.width) (hmask : a.mask n = a)
    {i : Nat} (hi : n ≤ i) : a.leadingBit i = false := by
  have hbit := leadingBit_mask hn i
  rw [hmask] at hbit
  have hnot : ¬ i < n := by omega
  simpa [hnot] using hbit

end IpAddress

end Provisioning
