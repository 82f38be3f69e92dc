import Provisioning.Proofs.Numeral
import Provisioning.Yaml.Scalar

/-! # Which plain scalars are integers

    An integer is written in decimal digits, or in the digits of another radix behind its mark,
    with a sign in front or without. Decimal digits with an idle zero in front of them are no
    integer. The readers of YAML try these forms in several orders and with limits of several
    kinds; here the forms are said once, without a limit, and each reader is shown to take exactly
    the integers of its range.
-/

namespace Provisioning.Yaml

open Numeral (IsMagnitude digit? ne_sign_of_digit? wordValues_pos)

/-! ### Forms of integers -/

/-- The letters that stand behind a zero to set a radix. -/
def radixMarks : List (Char × Nat) :=
  [('x', 16), ('o', 8), ('b', 2)]

/-- A number without a sign. Decimal digits have no zero in front of others. -/
inductive NaturalText : List Char → Nat → Prop
  | decimal {cs : List Char} {n : Nat} :
    IsMagnitude 10 cs n → (cs.head? = some '0' → cs = ['0']) → NaturalText cs n
  | marked {mark : Char × Nat} {cs : List Char} {n : Nat} :
    mark ∈ radixMarks → IsMagnitude mark.2 cs n → NaturalText ('0' :: mark.1 :: cs) n

/-- A number with or without a sign. -/
inductive IntegerText : List Char → Int → Prop
  | unsigned {cs : List Char} {n : Nat} : NaturalText cs n → IntegerText cs n
  | plus {cs : List Char} {n : Nat} : NaturalText cs n → IntegerText ('+' :: cs) n
  | minus {cs : List Char} {n : Nat} : NaturalText cs n → IntegerText ('-' :: cs) (-(n : Int))

theorem radixMarks_pos : ∀ mark ∈ radixMarks, 0 < mark.2 := by decide

/-! ### First characters -/

theorem startsSigned_cons {c : Char} {cs : List Char} (h : c ≠ '+' ∧ c ≠ '-') :
    startsSigned (c :: cs) = false := by
  unfold startsSigned
  split
  · next heq => exact absurd (List.cons.inj heq).1 h.1
  · next heq => exact absurd (List.cons.inj heq).1 h.2
  · rfl

theorem exists_sign_of_startsSigned {cs : List Char} (h : startsSigned cs = true) :
    ∃ c rest, cs = c :: rest ∧ (c = '+' ∨ c = '-') := by
  unfold startsSigned at h
  split at h
  · next rest => exact ⟨'+', rest, rfl, .inl rfl⟩
  · next rest => exact ⟨'-', rest, rfl, .inr rfl⟩
  · cases h

theorem dropPlus_of_startsSigned {cs : List Char} (h : startsSigned cs = false) :
    dropPlus cs = cs := by
  unfold dropPlus
  split
  · cases h
  · rfl

/-- Digits have no sign in front. -/
theorem startsSigned_of_isMagnitude {b : Nat} {cs : List Char} {n : Nat}
    (h : IsMagnitude b cs n) : startsSigned cs = false := by
  obtain ⟨c, d, rest, rfl, hd⟩ := h.exists_cons
  exact startsSigned_cons (ne_sign_of_digit? hd)

theorem NaturalText.startsSigned {cs : List Char} {n : Nat} (h : NaturalText cs n) :
    startsSigned cs = false := by
  cases h with
  | decimal h => exact startsSigned_of_isMagnitude h
  | marked => rfl

/-! ### Numbers without a sign -/

theorem radixDigits?_eq_some_iff {cs ds : List Char} {r : Nat} :
    radixDigits? cs = some (r, ds) ↔
      ∃ mark ∈ radixMarks, cs = '0' :: mark.1 :: ds ∧ r = mark.2 := by
  constructor
  · intro h
    unfold radixDigits? at h
    split at h
    · obtain ⟨rfl, rfl⟩ := Prod.mk.inj (Option.some.inj h)
      exact ⟨('x', 16), by decide, rfl, rfl⟩
    · obtain ⟨rfl, rfl⟩ := Prod.mk.inj (Option.some.inj h)
      exact ⟨('o', 8), by decide, rfl, rfl⟩
    · obtain ⟨rfl, rfl⟩ := Prod.mk.inj (Option.some.inj h)
      exact ⟨('b', 2), by decide, rfl, rfl⟩
    · cases h
  · rintro ⟨mark, hmark, rfl, rfl⟩
    simp only [radixMarks, List.mem_cons, List.not_mem_nil, or_false] at hmark
    rcases hmark with rfl | rfl | rfl <;> rfl

/-- The number that a text without a sign stands for, up to `limit`. -/
def natural? (limit : Nat) (cs : List Char) : Option Nat :=
  match radixDigits? cs with
  | some (radix, digits) => magnitude? radix limit digits
  | none => if hasIdleZero cs then none else magnitude? 10 limit cs

theorem magnitude?_eq_some_iff {b limit : Nat} (hb : 0 < b) {cs : List Char} {n : Nat} :
    magnitude? b limit cs = some n ↔ IsMagnitude b cs n ∧ n ≤ limit := by
  rw [← Numeral.readMagnitude_eq_ok_iff hb]
  unfold magnitude?
  cases Numeral.readMagnitude b limit cs with
  | error e => exact ⟨nofun, nofun⟩
  | ok m => exact ⟨fun h => congrArg Except.ok (Option.some.inj h),
      fun h => congrArg some (Except.ok.inj h)⟩

theorem isDigit_of_digit? {c : Char} {d : Nat} (h : digit? 10 c = some d) :
    Decimal.isDigit c = true := by
  unfold digit? Numeral.hexDigit? at h
  obtain ⟨hvalue, hlt⟩ := Option.filter_eq_some_iff.mp h
  have hlt : d < 10 := by simpa using hlt
  have hdecimal : '0' ≤ c ∧ c ≤ '9' := by
    -- The letters stand for ten and more.
    by_cases hc : '0' ≤ c ∧ c ≤ '9'
    · exact hc
    · rw [if_neg hc] at hvalue
      split at hvalue
      · have := Option.some.inj hvalue
        omega
      · split at hvalue
        · have := Option.some.inj hvalue
          omega
        · cases hvalue
  simpa [Decimal.isDigit] using hdecimal

/-- Decimal digits have an idle zero if one stands in front of others. -/
theorem hasIdleZero_iff_of_isMagnitude {cs : List Char} {n : Nat} (h : IsMagnitude 10 cs n) :
    hasIdleZero cs = true ↔ cs.head? = some '0' ∧ cs ≠ ['0'] := by
  unfold hasIdleZero
  rw [startsSigned_of_isMagnitude h, if_neg Bool.false_ne_true]
  constructor
  · intro hidle
    split at hidle
    · exact ⟨rfl, nofun⟩
    · cases hidle
  · rintro ⟨hhead, hmore⟩
    rcases cs with _ | ⟨c, _ | ⟨d, rest⟩⟩
    · cases hhead
    · obtain rfl : c = '0' := Option.some.inj hhead
      exact absurd rfl hmore
    · obtain rfl : c = '0' := Option.some.inj hhead
      show (d :: rest).all Decimal.isDigit = true
      rw [List.all_eq_true]
      intro e he
      obtain ⟨k, hk⟩ := h.digit e (List.mem_cons_of_mem _ he)
      exact isDigit_of_digit? hk

/-- Without a sign the numbers up to the limit are read. -/
theorem natural?_eq_some_iff {limit : Nat} {cs : List Char} {n : Nat} :
    natural? limit cs = some n ↔ NaturalText cs n ∧ n ≤ limit := by
  unfold natural?
  split
  · next radix digits hradix =>
    obtain ⟨mark, hmark, rfl, rfl⟩ := radixDigits?_eq_some_iff.mp hradix
    rw [magnitude?_eq_some_iff (radixMarks_pos mark hmark)]
    constructor
    · rintro ⟨hdigits, hle⟩
      exact ⟨.marked hmark hdigits, hle⟩
    · rintro ⟨htext, hle⟩
      generalize hcs : '0' :: mark.1 :: digits = cs at htext
      cases htext with
      | decimal _ hzero =>
        subst hcs
        cases hzero rfl
      | @marked mark' _ _ hmark' hdigits =>
        -- The mark sets the radix, so it is the same one.
        rw [hcs, radixDigits?_eq_some_iff.mpr ⟨mark', hmark', rfl, rfl⟩] at hradix
        obtain ⟨hbase, rfl⟩ := Prod.mk.inj (Option.some.inj hradix)
        exact ⟨hbase ▸ hdigits, hle⟩
  · next hradix =>
    constructor
    · intro h
      by_cases hidle : hasIdleZero cs = true
      · rw [if_pos hidle] at h
        cases h
      · rw [if_neg hidle] at h
        obtain ⟨hdigits, hle⟩ := (magnitude?_eq_some_iff (by decide)).mp h
        refine ⟨.decimal hdigits ?_, hle⟩
        intro hhead
        apply Classical.not_not.mp
        intro hmore
        exact hidle ((hasIdleZero_iff_of_isMagnitude hdigits).mpr ⟨hhead, hmore⟩)
    · rintro ⟨htext, hle⟩
      cases htext with
      | decimal hdigits hzero =>
        rw [if_neg, magnitude?_eq_some_iff (by decide)]
        · exact ⟨hdigits, hle⟩
        · intro hidle
          obtain ⟨hhead, hmore⟩ := (hasIdleZero_iff_of_isMagnitude hdigits).mp hidle
          exact hmore (hzero hhead)
      | @marked mark _ _ hmark hdigits =>
        rw [radixDigits?_eq_some_iff.mpr ⟨mark, hmark, rfl, rfl⟩] at hradix
        cases hradix

/-- A text stands for one integer only. -/
theorem NaturalText.unique {cs : List Char} {n m : Nat} (h : NaturalText cs n)
    (h' : NaturalText cs m) : n = m := by
  have hread := natural?_eq_some_iff.mpr ⟨h, Nat.le_max_left n m⟩
  have hread' := natural?_eq_some_iff.mpr ⟨h', Nat.le_max_right n m⟩
  exact Option.some.inj (hread.symm.trans hread')

/-- What starts with a sign is no number without one. -/
theorem natural?_of_startsSigned {limit : Nat} {cs : List Char} (h : startsSigned cs = true) :
    natural? limit cs = none := by
  rw [Option.eq_none_iff_forall_ne_some]
  intro n hn
  have hplain := (natural?_eq_some_iff.mp hn).1.startsSigned
  rw [h] at hplain
  cases hplain

/-! ### The readers -/

/-- A sign does not hide an idle zero. -/
theorem hasIdleZero_sign {c : Char} {cs : List Char} (hc : c = '+' ∨ c = '-')
    (h : startsSigned cs = false) : hasIdleZero (c :: cs) = hasIdleZero cs := by
  unfold hasIdleZero
  rw [h]
  rcases hc with rfl | rfl <;> rfl

theorem magnitude?_of_startsSigned {b limit : Nat} (hb : 0 < b) {cs : List Char}
    (h : startsSigned cs = true) : magnitude? b limit cs = none := by
  rw [Option.eq_none_iff_forall_ne_some]
  intro n hn
  have hplain := startsSigned_of_isMagnitude ((magnitude?_eq_some_iff hb).mp hn).1
  rw [h] at hplain
  cases hplain

theorem toOption_map {α β ε : Type} (f : α → β) (x : Except ε α) :
    (x.map f).toOption = x.toOption.map f := by
  cases x <;> rfl

/-- Where no sign is wanted a plus sign is skipped. -/
theorem unsigned?_eq (bits : Nat) (cs : List Char) :
    unsigned? bits cs = (natural? (Numeral.wordValues bits - 1) (dropPlus cs)).map Int.ofNat := by
  unfold unsigned? natural?
  cases hradix : radixDigits? (dropPlus cs) with
  | some found => rfl
  | none =>
    have hidle : dropPlus cs = cs ∨ cs = '+' :: dropPlus cs := by
      unfold dropPlus
      split
      · exact .inr rfl
      · exact .inl rfl
    show (if hasIdleZero cs then none else _) = Option.map Int.ofNat (if _ then none else _)
    by_cases hsigned : startsSigned (dropPlus cs) = true
    · -- Behind one sign there is another, and no digits.
      rw [magnitude?_of_startsSigned (by decide) hsigned]
      simp
    · have hsame : hasIdleZero cs = hasIdleZero (dropPlus cs) := by
        rcases hidle with heq | heq
        · rw [heq]
        · rw [heq, hasIdleZero_sign (.inl rfl) (by simpa using hsigned)]
          rfl
      rw [hsame]
      split <;> rfl

/-- Where a sign is wanted it sets the limit of the digits behind it. -/
theorem signed?_plus (bits : Nat) (cs : List Char) :
    signed? bits ('+' :: cs) =
      (natural? (Numeral.wordValues (bits - 1) - 1) cs).map Int.ofNat := by
  by_cases hsigned : startsSigned cs = true
  · rw [natural?_of_startsSigned hsigned]
    show (if startsSigned cs then none else _) = _
    rw [if_pos hsigned]
    rfl
  · show (if startsSigned cs then none else _) = _
    rw [if_neg hsigned]
    unfold natural?
    have hdrop : dropPlus ('+' :: cs) = cs := rfl
    rw [hdrop]
    cases radixDigits? cs with
    | some found => rfl
    | none =>
      show (if hasIdleZero ('+' :: cs) then none else
        ((Numeral.readMagnitude 10 _ cs).map Int.ofNat).toOption) = _
      rw [hasIdleZero_sign (.inl rfl) (by simpa using hsigned), toOption_map]
      split <;> rfl

/-- Behind a minus sign any number may stand. -/
theorem negative?_minus (bits : Nat) {cs : List Char} (h : startsSigned cs = false) :
    negative? bits ('-' :: cs) =
      (natural? (Numeral.wordValues (bits - 1)) cs).map fun n : Nat => -(n : Int) := by
  have hread : (Numeral.readInt 10 (Numeral.wordValues (bits - 1)) ('-' :: cs)).toOption =
      (magnitude? 10 (Numeral.wordValues (bits - 1)) cs).map fun n : Nat => -(n : Int) := by
    unfold Numeral.readInt magnitude?
    split
    · next heq => cases heq
    · next heq => exact absurd (List.cons.inj heq).1 (by decide)
    · next heq =>
      obtain rfl := (List.cons.inj heq).2
      rcases Numeral.readMagnitude 10 (Numeral.wordValues (bits - 1)) cs with e | n
      · cases e <;> rfl
      · rfl
    · next hother => exact absurd rfl (hother cs)
  have hdecimal : (if hasIdleZero ('-' :: cs) then none else
      (Numeral.readInt 10 (Numeral.wordValues (bits - 1)) ('-' :: cs)).toOption) =
      (if hasIdleZero cs then none else
        magnitude? 10 (Numeral.wordValues (bits - 1)) cs).map fun n : Nat => -(n : Int) := by
    rw [hasIdleZero_sign (.inr rfl) h, hread]
    split <;> rfl
  unfold negative? natural?
  simp only
  split
  · next c rest heq =>
    obtain rfl := (List.cons.inj heq).2
    rcases radixDigits? ('0' :: c :: rest) with _ | ⟨radix, digits⟩
    · exact hdecimal
    · dsimp only
      rcases magnitude? radix (Numeral.wordValues (bits - 1)) digits with _ | n <;> rfl
  · next hshort =>
    -- A mark takes two characters, which are not there.
    have hnone : radixDigits? cs = none := by
      rw [Option.eq_none_iff_forall_ne_some]
      rintro ⟨radix, digits⟩ hradix
      obtain ⟨mark, -, rfl, -⟩ := radixDigits?_eq_some_iff.mp hradix
      exact hshort mark.1 digits rfl
    rw [hnone]
    exact hdecimal

theorem signed?_minus (bits : Nat) (cs : List Char) :
    signed? bits ('-' :: cs) =
      (natural? (Numeral.wordValues (bits - 1)) cs).map fun n : Nat => -(n : Int) := by
  by_cases hsigned : startsSigned cs = true
  · rw [natural?_of_startsSigned hsigned]
    show (if startsSigned cs then none else _) = _
    rw [if_pos hsigned]
    rfl
  · show (if startsSigned cs then none else _) = _
    rw [if_neg hsigned]
    exact negative?_minus bits (by simpa using hsigned)

theorem signed?_of_startsSigned_eq_false (bits : Nat) {cs : List Char}
    (h : startsSigned cs = false) :
    signed? bits cs = (natural? (Numeral.wordValues (bits - 1) - 1) cs).map Int.ofNat := by
  unfold signed? natural?
  rw [h, dropPlus_of_startsSigned h]
  rcases radixDigits? cs with _ | found
  · rcases cs with _ | ⟨c, cs⟩
    · rfl
    · have hread : Numeral.readInt 10 (Numeral.wordValues (bits - 1)) (c :: cs) =
          (Numeral.readMagnitude 10 (Numeral.wordValues (bits - 1) - 1) (c :: cs)).map
            Int.ofNat := by
        unfold Numeral.readInt
        split
        · next heq => cases heq
        · next heq =>
          obtain ⟨rfl, -⟩ := List.cons.inj heq
          cases h
        · next heq =>
          obtain ⟨rfl, -⟩ := List.cons.inj heq
          cases h
        · rfl
      have hnegative : negative? bits (c :: cs) = (if hasIdleZero (c :: cs) then none else
          (Numeral.readInt 10 (Numeral.wordValues (bits - 1)) (c :: cs)).toOption) := by
        unfold negative?
        simp only
        split
        · next heq =>
          obtain ⟨rfl, -⟩ := List.cons.inj heq
          cases h
        · rfl
      show negative? bits (c :: cs) = _
      rw [hnegative, hread, toOption_map]
      show _ = Option.map _ (if _ then _ else _)
      unfold magnitude?
      split <;> rfl
  · rfl

/-! ### What is read -/

/-- Where a sign is wanted the integers of the range are read, however they are written. -/
theorem signed?_eq_some_iff {bits : Nat} {cs : List Char} {i : Int} :
    signed? bits cs = some i ↔ IntegerText cs i ∧
      -(Numeral.wordValues (bits - 1) : Int) ≤ i ∧ i < Numeral.wordValues (bits - 1) := by
  have hpos := wordValues_pos (bits - 1)
  -- The sign sets the limit of the digits behind it.
  by_cases hsigned : startsSigned cs = true
  · obtain ⟨c, rest, rfl, rfl | rfl⟩ := exists_sign_of_startsSigned hsigned
    · rw [signed?_plus, Option.map_eq_some_iff]
      constructor
      · rintro ⟨n, hn, rfl⟩
        obtain ⟨htext, hle⟩ := natural?_eq_some_iff.mp hn
        refine ⟨.plus htext, ?_, ?_⟩ <;> simp only [Int.ofNat_eq_natCast] <;> omega
      · rintro ⟨htext, hlo, hhi⟩
        cases htext with
        | unsigned htext => cases htext.startsSigned
        | @plus _ n htext =>
          exact ⟨n, natural?_eq_some_iff.mpr ⟨htext, by omega⟩, rfl⟩
    · rw [signed?_minus, Option.map_eq_some_iff]
      constructor
      · rintro ⟨n, hn, rfl⟩
        obtain ⟨htext, hle⟩ := natural?_eq_some_iff.mp hn
        refine ⟨.minus htext, ?_, ?_⟩ <;> omega
      · rintro ⟨htext, hlo, hhi⟩
        cases htext with
        | unsigned htext => cases htext.startsSigned
        | @minus _ n htext =>
          exact ⟨n, natural?_eq_some_iff.mpr ⟨htext, by omega⟩, rfl⟩
  · have hplain : startsSigned cs = false := by simpa using hsigned
    rw [signed?_of_startsSigned_eq_false bits hplain, Option.map_eq_some_iff]
    constructor
    · rintro ⟨n, hn, rfl⟩
      obtain ⟨htext, hle⟩ := natural?_eq_some_iff.mp hn
      refine ⟨.unsigned htext, ?_, ?_⟩ <;> simp only [Int.ofNat_eq_natCast] <;> omega
    · rintro ⟨htext, hlo, hhi⟩
      cases htext with
      | @unsigned _ n htext =>
        exact ⟨n, natural?_eq_some_iff.mpr ⟨htext, by omega⟩, rfl⟩
      | plus | minus => cases hplain

/-- Where no sign is wanted there may be a plus sign but no minus sign. -/
theorem unsigned?_eq_some_iff {bits : Nat} {cs : List Char} {i : Int} :
    unsigned? bits cs = some i ↔
      IntegerText cs i ∧ cs.head? ≠ some '-' ∧ i < Numeral.wordValues bits := by
  have hpos := wordValues_pos bits
  rw [unsigned?_eq, Option.map_eq_some_iff]
  constructor
  · rintro ⟨n, hn, rfl⟩
    obtain ⟨htext, hle⟩ := natural?_eq_some_iff.mp hn
    have hlt : (Int.ofNat n) < Numeral.wordValues bits := by
      simp only [Int.ofNat_eq_natCast]
      omega
    unfold dropPlus at htext
    split at htext
    · exact ⟨.plus htext, by simp, hlt⟩
    · next cs _ =>
      refine ⟨.unsigned htext, ?_, hlt⟩
      intro hminus
      obtain ⟨rest, rfl⟩ := List.head?_eq_some_iff.mp hminus
      cases htext.startsSigned
  · rintro ⟨htext, hminus, hhi⟩
    cases htext with
    | @unsigned _ n htext =>
      have hdrop : dropPlus cs = cs := dropPlus_of_startsSigned htext.startsSigned
      rw [hdrop]
      exact ⟨n, natural?_eq_some_iff.mpr ⟨htext, by omega⟩, rfl⟩
    | @plus _ n htext =>
      exact ⟨n, natural?_eq_some_iff.mpr ⟨htext, by omega⟩, rfl⟩
    | minus => exact absurd rfl hminus

/-- A text stands for one integer only. -/
theorem IntegerText.unique {cs : List Char} {i j : Int} (h : IntegerText cs i)
    (h' : IntegerText cs j) : i = j := by
  cases h with
  | unsigned h =>
    cases h' with
    | unsigned h' => rw [h.unique h']
    | plus | minus => cases h.startsSigned
  | plus h =>
    cases h' with
    | unsigned h' => cases h'.startsSigned
    | plus h' => rw [h.unique h']
  | minus h =>
    cases h' with
    | unsigned h' => cases h'.startsSigned
    | minus h' => rw [h.unique h']

end Provisioning.Yaml
