import Provisioning.Proofs.Numeral.Natural

/-! # Hexadecimal digits

    The digits of base sixteen are 0 to 9 and the letters up to f in either case. The two cases of
    a letter are one digit, so a numeral may be put into lower case before it is read, and the
    lower case of a digit is what is written for its value.

    There are few enough characters in ASCII to look at each of them, and none of those beyond is a
    digit or changed by being put into lower case (`forall_char`).
-/

namespace Provisioning.Numeral

/-! ### Characters -/

/-- A digit of base sixteen, in either case. -/
def IsHexDigit (c : Char) : Prop :=
  ('0' ≤ c ∧ c ≤ '9') ∨ ('a' ≤ c ∧ c ≤ 'f') ∨ ('A' ≤ c ∧ c ≤ 'F')

instance (c : Char) : Decidable (IsHexDigit c) :=
  inferInstanceAs (Decidable (_ ∨ _ ∨ _))

theorem isSome_hexDigit?_iff {c : Char} : (hexDigit? c).isSome = true ↔ IsHexDigit c := by
  unfold hexDigit? IsHexDigit
  by_cases hdecimal : '0' ≤ c ∧ c ≤ '9'
  · simp [hdecimal]
  · by_cases hlower : 'a' ≤ c ∧ c ≤ 'f'
    · simp [hdecimal, hlower]
    · by_cases hupper : 'A' ≤ c ∧ c ≤ 'F' <;> simp [hdecimal, hlower, hupper]

/-- What holds of each character of ASCII and of all characters beyond holds of every character. -/
theorem forall_char {P : Char → Prop} (hascii : ∀ n : Fin 0x80, P (Char.ofNat n))
    (hbeyond : ∀ c : Char, 0x80 ≤ c.toNat → P c) (c : Char) : P c := by
  by_cases hc : c.toNat < 0x80
  · have h := hascii ⟨c.toNat, hc⟩
    rwa [Char.ofNat_toNat] at h
  · exact hbeyond c (Nat.not_lt.mp hc)

/-- Beyond ASCII there are no digits. -/
theorem hexDigit?_eq_none {c : Char} (h : 0x80 ≤ c.toNat) : hexDigit? c = none := by
  have hnot : ∀ d : Char, d.toNat < 0x80 → ¬ c ≤ d := by
    intro d hd hle
    have hnat : c.toNat ≤ d.toNat := hle
    omega
  unfold hexDigit?
  rw [if_neg fun hc => hnot '9' (by decide) hc.2, if_neg fun hc => hnot 'f' (by decide) hc.2,
    if_neg fun hc => hnot 'F' (by decide) hc.2]

/-- Beyond ASCII there are no letters whose case is changed. -/
theorem toLower_eq_self {c : Char} (h : 0x80 ≤ c.toNat) : c.toLower = c := by
  unfold Char.toLower
  apply dif_neg
  rintro ⟨-, hle⟩
  have hnat : c.toNat ≤ 'Z'.toNat := hle
  have hz : 'Z'.toNat < 0x80 := by decide
  omega

/-- A sign or a colon is the lower case of itself only. -/
theorem toLower_eq_iff {c d : Char} (hd : d = '+' ∨ d = ':') : c.toLower = d ↔ c = d := by
  revert c
  apply forall_char
  · rcases hd with rfl | rfl
    · decide
    · decide
  · intro c hc
    rw [toLower_eq_self hc]

theorem toList_toLower (s : String) : s.toLower.toList = s.toList.map Char.toLower :=
  String.toList_map

/-- The two cases of a letter are one digit. -/
theorem hexDigit?_toLower (c : Char) : hexDigit? c.toLower = hexDigit? c := by
  revert c
  apply forall_char
  · decide
  · intro c hc
    rw [toLower_eq_self hc]

/-- The lower case of a digit is what is written for its value. -/
theorem hexDigit_of_hexDigit? {c : Char} {d : Nat} (h : hexDigit? c = some d) :
    d < 16 ∧ hexDigit d = c.toLower := by
  have hall : ∀ c, ∀ d ∈ hexDigit? c, d < 16 ∧ hexDigit d = c.toLower := by
    apply forall_char
    · decide
    · intro c hc d hd
      rw [hexDigit?_eq_none hc] at hd
      cases hd
  exact hall c d h

/-- In base sixteen every digit is one. -/
theorem digit?_sixteen (c : Char) : digit? 16 c = hexDigit? c := by
  unfold digit?
  cases hd : hexDigit? c with
  | none => rfl
  | some d => simp [(hexDigit_of_hexDigit? hd).1]

/-! ### Numerals -/

variable {b limit : Nat}

theorem digit?_toLower (b : Nat) (c : Char) : digit? b c.toLower = digit? b c := by
  unfold digit?
  rw [hexDigit?_toLower]

theorem readDigits_map_toLower (cs : List Char) (value : Nat) :
    readDigits b limit (cs.map Char.toLower) value = readDigits b limit cs value := by
  induction cs generalizing value with
  | nil => rfl
  | cons c cs ih => simp only [List.map_cons, readDigits, digit?_toLower, ih]

/-- Numerals are read alike in either case. -/
theorem readNat_map_toLower (cs : List Char) :
    readNat b limit (cs.map Char.toLower) = readNat b limit cs := by
  cases cs with
  | nil => rfl
  | cons c cs =>
    -- A plus sign is the lower case of itself only, so it is seen in both texts or in neither.
    by_cases hc : c = '+'
    · subst hc
      show readMagnitude b limit (cs.map Char.toLower) = readMagnitude b limit cs
      cases cs with
      | nil => rfl
      | cons c cs => exact readDigits_map_toLower (c :: cs) 0
    · have hlower : c.toLower ≠ '+' := fun h => hc ((toLower_eq_iff (.inl rfl)).mp h)
      rw [List.map_cons, readNat_cons hlower, readNat_cons hc]
      exact readDigits_map_toLower (c :: cs) 0

/-- A single digit makes up its value. -/
theorem isMagnitude_one_iff {c : Char} {n : Nat} :
    IsMagnitude b [c] n ↔ digit? b c = some n := by
  constructor
  · intro h
    obtain ⟨ds, hds, hvalue⟩ := h.digits
    obtain ⟨d, es, rfl, hd, hes⟩ := map_digit?_cons_eq_iff.mp hds
    obtain rfl : es = [] := List.map_eq_nil_iff.mp hes.symm
    have hvalue : 0 * b + d = n := hvalue
    rw [hd, ← hvalue, Nat.zero_mul, Nat.zero_add]
  · intro h
    exact ⟨List.cons_ne_nil c [], [n], by simp [h], by simp⟩

/-- Two digits make up the first of them times the base and the second. -/
theorem isMagnitude_two_iff {x y : Char} {n : Nat} :
    IsMagnitude b [x, y] n ↔
      ∃ high low, digit? b x = some high ∧ digit? b y = some low ∧ n = high * b + low := by
  constructor
  · intro h
    obtain ⟨ds, hds, hvalue⟩ := h.digits
    obtain ⟨high, es, rfl, hhigh, hes⟩ := map_digit?_cons_eq_iff.mp hds
    obtain ⟨low, fs, rfl, hlow, hfs⟩ := map_digit?_cons_eq_iff.mp hes
    obtain rfl : fs = [] := List.map_eq_nil_iff.mp hfs.symm
    have hvalue : (0 * b + high) * b + low = n := hvalue
    rw [Nat.zero_mul, Nat.zero_add] at hvalue
    exact ⟨high, low, hhigh, hlow, hvalue.symm⟩
  · rintro ⟨high, low, hhigh, hlow, rfl⟩
    exact ⟨List.cons_ne_nil x [y], [high, low], by simp [hhigh, hlow], by simp⟩

end Provisioning.Numeral
