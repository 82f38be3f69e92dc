import Provisioning.Proofs.Datum
import Provisioning.Proofs.Numeral
import Provisioning.Yaml.Scalar

/-! # Integers as plain scalars

    The decimal digits of a number have neither a sign nor a radix in front, and a zero only if
    it stands alone. So each of the readers for integers takes them as decimal digits.
-/

namespace Provisioning.Yaml

/-! ### Decimal digits -/

/-- Decimal digits are a lone zero or start with another digit. -/
theorem decimal_cases (n : Nat) :
    Numeral.decimal n = ['0'] ∨
      ∃ c cs, Numeral.decimal n = c :: cs ∧ c ≠ '0' ∧ c ≠ '+' ∧ c ≠ '-' := by
  obtain ⟨ds, hds⟩ := Numeral.exists_digits (b := 10) (by decide) n
  obtain ⟨d, more, hcons, hzero⟩ := hds.first
  have hd : d < 10 := hds.lt d (by simp [hcons])
  have hchars : Numeral.decimal n = Nat.digitChar d :: more.map Nat.digitChar := by
    rw [Numeral.decimal, hds.chars, hcons, List.map_cons]
  by_cases h : d = 0
  · left
    rw [hchars, hzero h, h]
    rfl
  · right
    have hnonzero : ∀ e : Fin 10, e.val ≠ 0 → Nat.digitChar e ≠ '0' := by decide
    exact ⟨_, _, hchars, hnonzero ⟨d, hd⟩ h, Numeral.digitChar_ne (by decide) hd (by decide),
      Numeral.digitChar_ne (by decide) hd (by decide)⟩

theorem startsSigned_decimal (n : Nat) : startsSigned (Numeral.decimal n) = false := by
  rcases decimal_cases n with h | ⟨c, cs, h, -, hplus, hminus⟩
  · rw [h]
    rfl
  · rw [h]
    unfold startsSigned
    split
    · next heq => exact absurd (List.cons.inj heq).1 hplus
    · next heq => exact absurd (List.cons.inj heq).1 hminus
    · rfl

theorem dropPlus_decimal (n : Nat) : dropPlus (Numeral.decimal n) = Numeral.decimal n := by
  rcases decimal_cases n with h | ⟨c, cs, h, -, hplus, -⟩
  · rw [h]
    rfl
  · rw [h]
    unfold dropPlus
    split
    · next heq => exact absurd (List.cons.inj heq).1 hplus
    · rfl

theorem radixDigits?_decimal (n : Nat) : radixDigits? (Numeral.decimal n) = none := by
  rcases decimal_cases n with h | ⟨c, cs, h, hzero, -⟩
  · rw [h]
    rfl
  · rw [h]
    unfold radixDigits?
    split
    · next heq => exact absurd (List.cons.inj heq).1 hzero
    · next heq => exact absurd (List.cons.inj heq).1 hzero
    · next heq => exact absurd (List.cons.inj heq).1 hzero
    · rfl

/-- No more digits follow a zero. -/
theorem decimal_ne_zero_cons (n : Nat) (c : Char) (cs : List Char) :
    Numeral.decimal n ≠ '0' :: c :: cs := by
  rcases decimal_cases n with h | ⟨d, ds, h, hzero, -⟩
  · rw [h]
    nofun
  · rw [h]
    intro heq
    exact hzero (List.cons.inj heq).1

theorem hasIdleZero_decimal (n : Nat) : hasIdleZero (Numeral.decimal n) = false := by
  unfold hasIdleZero
  rw [startsSigned_decimal]
  simp only [Bool.false_eq_true, if_false]
  split
  · next heq => exact absurd heq (decimal_ne_zero_cons n _ _)
  · rfl

/-! ### Integers -/

/-- An integer with a minus sign has no idle zeros either. -/
theorem hasIdleZero_signedDecimal (i : Int) : hasIdleZero (Numeral.signedDecimal i) = false := by
  cases i with
  | ofNat n => exact hasIdleZero_decimal n
  | negSucc n =>
    unfold hasIdleZero
    split
    · next heq => exact absurd heq (decimal_ne_zero_cons (n + 1) _ _)
    · rfl

/-- An integer is no word for nothing. -/
theorem not_isNull_signedDecimal (i : Int) :
    isNull (String.ofList (Numeral.signedDecimal i)) = false := by
  have hword : ∀ (word : String) (c : Char), c ∈ word.toList → c ≠ '-' → c.isDigit = false →
      (String.ofList (Numeral.signedDecimal i) == word) = false := by
    intro word c hc hdash hdigit
    rw [beq_eq_false_iff_ne]
    rintro rfl
    rw [String.toList_ofList] at hc
    rcases Numeral.mem_signedDecimal hc with heq | hc
    · exact hdash heq
    · rw [hc] at hdigit
      cases hdigit
  unfold isNull
  rw [hword "null" 'n' (by decide) (by decide) rfl, hword "Null" 'N' (by decide) (by decide) rfl,
    hword "NULL" 'N' (by decide) (by decide) rfl, hword "~" '~' (by decide) (by decide) rfl]
  rfl

/-- A number that fits a word is read where no sign is wanted. -/
theorem unsigned?_signedDecimal {i : Int} (hi : FitsWord i) (hpos : 0 ≤ i) :
    unsigned? 64 (Numeral.signedDecimal i) = some i := by
  obtain ⟨n, rfl⟩ := Int.eq_ofNat_of_zero_le hpos
  have hlimit : n ≤ Numeral.wordValues 64 - 1 := by
    have hhi := hi.2
    have hvalues : Numeral.wordValues 64 = 0x10000000000000000 := rfl
    omega
  have hread : Numeral.readMagnitude 10 (Numeral.wordValues 64 - 1) (Numeral.decimal n) = .ok n :=
    Numeral.readMagnitude_toDigits (by decide) (by decide) hlimit
  show unsigned? 64 (Numeral.decimal n) = some (n : Int)
  unfold unsigned? magnitude?
  simp only [dropPlus_decimal, radixDigits?_decimal, hasIdleZero_decimal, Bool.false_eq_true,
    if_false, hread]
  rfl

/-- An integer without a radix is read as a signed one. -/
theorem negative?_signedDecimal {i : Int} (hi : FitsWord i) :
    negative? 64 (Numeral.signedDecimal i) = some i := by
  obtain ⟨hlo, hhi⟩ := hi
  have hvalues : Numeral.wordValues (64 - 1) = 0x8000000000000000 := rfl
  have hread : Numeral.readInt 10 (Numeral.wordValues (64 - 1)) (Numeral.signedDecimal i) = .ok i :=
    Numeral.readInt_signedDecimal (by rw [hvalues]; omega) (by rw [hvalues]; omega)
  unfold negative?
  simp only
  split
  · -- No written integer starts with a minus sign, a zero and something else.
    next c rest heq =>
    cases i with
    | ofNat n =>
      have hsigned := startsSigned_decimal n
      rw [show Numeral.decimal n = '-' :: '0' :: c :: rest from heq] at hsigned
      cases hsigned
    | negSucc n => exact absurd (List.cons.inj heq).2 (decimal_ne_zero_cons (n + 1) _ _)
  · rw [hasIdleZero_signedDecimal, if_neg (by simp), hread]
    rfl

/-- An integer that fits a word is read where a sign is wanted. -/
theorem signed?_signedDecimal {i : Int} (hi : FitsWord i) :
    signed? 64 (Numeral.signedDecimal i) = some i := by
  have hnegative := negative?_signedDecimal hi
  cases i with
  | ofNat n =>
    show signed? 64 (Numeral.decimal n) = _
    unfold signed?
    simp only [startsSigned_decimal, dropPlus_decimal, radixDigits?_decimal]
    exact hnegative
  | negSucc n =>
    show signed? 64 ('-' :: Numeral.decimal (n + 1)) = _
    unfold signed?
    simp only [List.drop_one, List.tail_cons, startsSigned_decimal, Bool.and_false]
    exact hnegative

end Provisioning.Yaml
