import Provisioning.Numeral

/-! # Digits of numbers

    A number is written as the list of its digits. Readers of numerals differ in what they allow
    in front of the digits and in when they stop, but all of them go through the digits from the
    left, so all of them are handled through the list `ds` of `Digits b n ds`.

    Main statements: `readNat_decimal`, `readInt_signedDecimal` and `readNat_hexPair`, that what
    is written is read back; and `readMagnitude_eq_ok_iff` and `readInt_eq_ok_iff`, which texts are
    read at all.
-/

namespace Provisioning.Numeral

/-! ### Single digits -/

/-- A digit is read as its value. -/
theorem digit?_digitChar {b d : Nat} (hr : b ≤ 16) (hd : d < b) :
    digit? b (Nat.digitChar d) = some d := by
  have hlt : d < 16 := by omega
  have hall : ∀ e : Fin 16, hexDigit? (Nat.digitChar e) = some e.val := by decide
  have hhex : hexDigit? (Nat.digitChar d) = some d := hall ⟨d, hlt⟩
  simp [digit?, hhex, hd]

/-- The two writers of digits agree. -/
theorem hexDigit_eq_digitChar {d : Nat} (hd : d < 16) : hexDigit d = Nat.digitChar d := by
  have hall : ∀ e : Fin 16, hexDigit e = Nat.digitChar e := by decide
  exact hall ⟨d, hd⟩

theorem hexDigit?_hexDigit {d : Nat} (hd : d < 16) : hexDigit? (hexDigit d) = some d := by
  have hall : ∀ e : Fin 16, hexDigit? (hexDigit e) = some e.val := by decide
  exact hall ⟨d, hd⟩

/-- A digit is no character that is not a digit. -/
theorem digitChar_ne {b d : Nat} {c : Char} (hr : b ≤ 16) (hd : d < b)
    (hc : digit? b c = none) : Nat.digitChar d ≠ c := by
  intro h
  have hsome := digit?_digitChar hr hd
  rw [h, hc] at hsome
  cases hsome

/-! ### Lists of digits -/

/-- The number that digits make up behind those of `value`. -/
def joinDigits (b : Nat) (ds : List Nat) (value : Nat) : Nat :=
  ds.foldl (fun v d => v * b + d) value

@[simp] theorem joinDigits_nil (b value : Nat) : joinDigits b [] value = value := rfl

@[simp] theorem joinDigits_cons (b d : Nat) (ds : List Nat) (value : Nat) :
    joinDigits b (d :: ds) value = joinDigits b ds (value * b + d) := rfl

theorem joinDigits_append (b : Nat) (ds es : List Nat) (value : Nat) :
    joinDigits b (ds ++ es) value = joinDigits b es (joinDigits b ds value) := by
  simp [joinDigits]

/-- More digits make no number smaller. -/
theorem le_joinDigits {b : Nat} (hr : 0 < b) (ds : List Nat) (value : Nat) :
    value ≤ joinDigits b ds value := by
  induction ds generalizing value with
  | nil => simp
  | cons d ds ih =>
    have hstep : value ≤ value * b := Nat.le_mul_of_pos_right value hr
    have hrest := ih (value * b + d)
    simp only [joinDigits_cons]
    omega

/-- `ds` are the digits of `n`, as they are written. -/
structure Digits (b n : Nat) (ds : List Nat) : Prop where
  lt : ∀ d ∈ ds, d < b
  value : joinDigits b ds 0 = n
  chars : Nat.toDigits b n = ds.map Nat.digitChar
  /-- There is a first digit, and it is a zero only if it is the only one. -/
  first : ∃ d more, ds = d :: more ∧ (d = 0 → more = [])

/-- Every number has digits. -/
theorem exists_digits {b : Nat} (hr : 1 < b) (n : Nat) : ∃ ds, Digits b n ds := by
  -- The induction follows the writer, which splits off the last digit.
  induction n using Nat.base_induction b hr with
  | single d hd =>
    refine ⟨[d], ?_, ?_, ?_, ?_⟩
    · intro e he
      have : e = d := by simpa using he
      omega
    · simp
    · simp [Nat.toDigits_of_lt_base hd]
    · exact ⟨d, [], rfl, fun _ => rfl⟩
  | digit m k hk hm ih =>
    obtain ⟨ds, hds⟩ := ih
    refine ⟨ds ++ [k], ?_, ?_, ?_, ?_⟩
    · intro e he
      rcases List.mem_append.mp he with h | h
      · exact hds.lt e h
      · have : e = k := by simpa using h
        omega
    · rw [joinDigits_append, hds.value]
      simp [Nat.mul_comm]
    · rw [← Nat.toDigits_append_toDigits hr hm hk, hds.chars, Nat.toDigits_of_lt_base hk]
      simp
    · -- The first digit stays the first; it is not zero since `m` is positive.
      obtain ⟨d, more, hcons, hzero⟩ := hds.first
      refine ⟨d, more ++ [k], by simp [hcons], ?_⟩
      intro hd
      have hvalue := hds.value
      rw [hcons, hzero hd, hd] at hvalue
      simp at hvalue
      omega

/-- The first character written for a number is a digit. -/
theorem exists_toDigits_eq_cons {b : Nat} (hr : 1 < b) (n : Nat) :
    ∃ d more, d < b ∧ Nat.toDigits b n = Nat.digitChar d :: more := by
  obtain ⟨ds, hds⟩ := exists_digits hr n
  obtain ⟨d, more, hcons, -⟩ := hds.first
  refine ⟨d, more.map Nat.digitChar, hds.lt d (by simp [hcons]), ?_⟩
  rw [hds.chars, hcons, List.map_cons]

/-! ### Characters -/

/-- An integer is written in digits, behind a dash if at all. -/
theorem mem_signedDecimal {i : Int} {c : Char} (h : c ∈ signedDecimal i) :
    c = '-' ∨ c.isDigit = true := by
  cases i with
  | ofNat n => exact .inr (Nat.isDigit_of_mem_toDigits (by decide) (by decide) h)
  | negSucc n =>
    rcases List.mem_cons.mp h with rfl | h
    · exact .inl rfl
    · exact .inr (Nat.isDigit_of_mem_toDigits (by decide) (by decide) h)

/-- A digit is a character of ASCII. -/
theorem toNat_digitChar_lt {d : Nat} (hd : d < 16) : (Nat.digitChar d).toNat < 0x80 := by
  have hall : ∀ e : Fin 16, (Nat.digitChar e).toNat < 0x80 := by decide
  exact hall ⟨d, hd⟩

/-- Numbers are written in ASCII. -/
theorem toNat_lt_of_mem_toDigits {b n : Nat} (h1 : 1 < b) (h16 : b ≤ 16) {c : Char}
    (hc : c ∈ Nat.toDigits b n) : c.toNat < 0x80 := by
  obtain ⟨ds, hds⟩ := exists_digits h1 n
  rw [hds.chars] at hc
  obtain ⟨d, hd, rfl⟩ := List.mem_map.mp hc
  exact toNat_digitChar_lt (by have := hds.lt d hd; omega)

theorem toNat_lt_of_mem_signedDecimal {i : Int} {c : Char} (hc : c ∈ signedDecimal i) :
    c.toNat < 0x80 := by
  cases i with
  | ofNat n => exact toNat_lt_of_mem_toDigits (by decide) (by decide) hc
  | negSucc n =>
    rcases List.mem_cons.mp hc with rfl | hc
    · decide
    · exact toNat_lt_of_mem_toDigits (by decide) (by decide) hc

/-! ### Reading what was written -/

/-- Digits are read as the number that they make up, if it is in the range. -/
theorem readDigits_digitChars {b limit : Nat} (h1 : 1 < b) (h16 : b ≤ 16)
    {ds : List Nat} (hds : ∀ d ∈ ds, d < b) {value : Nat}
    (hle : joinDigits b ds value ≤ limit) :
    readDigits b limit (ds.map Nat.digitChar) value = .ok (joinDigits b ds value) := by
  induction ds generalizing value with
  | nil => rfl
  | cons d ds ih =>
    have hd : d < b := hds d (by simp)
    -- The number so far is no greater than the whole, so the limit is not passed here.
    have hstep := le_joinDigits (b := b) (by omega) ds (value * b + d)
    rw [joinDigits_cons] at hle
    have hnot : ¬ limit < value * b + d := by omega
    simp only [List.map_cons, readDigits, digit?_digitChar h16 hd, if_neg hnot]
    exact ih (fun e he => hds e (by simp [he])) hle

theorem readDigits_toDigits {b limit n : Nat} (h1 : 1 < b) (h16 : b ≤ 16)
    (hn : n ≤ limit) : readDigits b limit (Nat.toDigits b n) 0 = .ok n := by
  obtain ⟨ds, hds⟩ := exists_digits h1 n
  rw [hds.chars, readDigits_digitChars h1 h16 hds.lt (by rw [hds.value]; exact hn), hds.value]

theorem readMagnitude_toDigits {b limit n : Nat} (h1 : 1 < b) (h16 : b ≤ 16)
    (hn : n ≤ limit) : readMagnitude b limit (Nat.toDigits b n) = .ok n := by
  obtain ⟨d, more, -, hcons⟩ := exists_toDigits_eq_cons h1 n
  have hread := readDigits_toDigits h1 h16 hn
  rw [hcons] at hread ⊢
  exact hread

/-- Behind what is neither empty nor signed the readers only read digits. -/
theorem readNat_of_ne_plus {b limit : Nat} {c : Char} {cs : List Char} (hc : c ≠ '+') :
    readNat b limit (c :: cs) = readDigits b limit (c :: cs) 0 := by
  rw [readNat]
  · simp
  · simpa using hc

/-- A number in range is read back. -/
theorem readNat_decimal {limit n : Nat} (hn : n ≤ limit) :
    readNat 10 limit (decimal n) = .ok n := by
  obtain ⟨d, more, hd, hcons⟩ := exists_toDigits_eq_cons (b := 10) (by omega) n
  have hplus : Nat.digitChar d ≠ '+' := digitChar_ne (by omega) hd (by decide)
  have hread := readDigits_toDigits (b := 10) (by omega) (by omega) hn
  rw [decimal, hcons, readNat_of_ne_plus hplus, ← hcons, hread]

/-- An integer in range is read back. -/
theorem readInt_signedDecimal {bound : Nat} {i : Int} (hlo : -(bound : Int) ≤ i)
    (hhi : i < bound) : readInt 10 bound (signedDecimal i) = .ok i := by
  cases i with
  | ofNat n =>
    obtain ⟨d, more, hd, hcons⟩ := exists_toDigits_eq_cons (b := 10) (by omega) n
    have hplus : Nat.digitChar d ≠ '+' := digitChar_ne (by omega) hd (by decide)
    have hminus : Nat.digitChar d ≠ '-' := digitChar_ne (by omega) hd (by decide)
    have hn : n ≤ bound - 1 := by simp at hhi; omega
    have hread := readDigits_toDigits (b := 10) (by omega) (by omega) hn
    simp only [signedDecimal, decimal, hcons] at hread ⊢
    rw [readInt]
    · rw [hread]
      rfl
    · simp
    · simp [hplus]
    · simp [hminus]
  | negSucc n =>
    -- The least number has no positive counterpart, so the magnitude may reach the bound.
    have hn : n + 1 ≤ bound := by omega
    simp only [signedDecimal, decimal, readInt,
      readMagnitude_toDigits (b := 10) (by omega) (by omega) hn]
    rfl

/-! ### Different numbers -/

/-- Different numbers are written differently. -/
theorem decimal_injective : Function.Injective decimal := by
  intro m n h
  have hm := readNat_decimal (Nat.le_max_left m n)
  have hn := readNat_decimal (Nat.le_max_right m n)
  rw [h, hn] at hm
  exact (Except.ok.inj hm).symm

theorem signedDecimal_injective : Function.Injective signedDecimal := by
  intro i j h
  -- Both are read from the one text, in a range that holds both.
  have hi : readInt 10 (i.natAbs + j.natAbs + 1) (signedDecimal i) = .ok i :=
    readInt_signedDecimal (by omega) (by omega)
  have hj : readInt 10 (i.natAbs + j.natAbs + 1) (signedDecimal j) = .ok j :=
    readInt_signedDecimal (by omega) (by omega)
  rw [h, hj] at hi
  exact (Except.ok.inj hi).symm

/-! ### What is in range -/

theorem le_of_readDigits {b limit : Nat} {cs : List Char} {value n : Nat}
    (h : readDigits b limit cs value = .ok n) (hvalue : value ≤ limit) : n ≤ limit := by
  induction cs generalizing value with
  | nil =>
    obtain rfl := Except.ok.inj h
    exact hvalue
  | cons c cs ih =>
    rw [readDigits] at h
    split at h
    · cases h
    · next d _ =>
      by_cases hout : limit < value * b + d
      · rw [if_pos hout] at h
        cases h
      · rw [if_neg hout] at h
        exact ih h (by omega)

/-- What is read as a number is in the range that was asked for. -/
theorem le_of_readNat {b limit : Nat} {cs : List Char} {n : Nat}
    (h : readNat b limit cs = .ok n) : n ≤ limit := by
  unfold readNat at h
  split at h
  · cases h
  · unfold readMagnitude at h
    split at h
    · cases h
    · exact le_of_readDigits h (Nat.zero_le limit)
  · exact le_of_readDigits h (Nat.zero_le limit)

/-- A byte is read back from its two hexadecimal digits. -/
theorem readNat_hexPair (b : UInt8) : readNat 16 255 (hexPair b) = .ok b.toNat := by
  have hb : b.toNat < 256 := b.toNat_lt
  have hhigh : b.toNat / 16 < 16 := by omega
  have hlow : b.toNat % 16 < 16 := by omega
  have hplus : Nat.digitChar (b.toNat / 16) ≠ '+' := digitChar_ne (by omega) hhigh (by decide)
  have hjoin : joinDigits 16 [b.toNat / 16, b.toNat % 16] 0 = b.toNat := by
    simp only [joinDigits_cons, joinDigits_nil]
    omega
  have hread : readDigits 16 255 ([b.toNat / 16, b.toNat % 16].map Nat.digitChar) 0
      = .ok (joinDigits 16 [b.toNat / 16, b.toNat % 16] 0) :=
    readDigits_digitChars (by omega) (by omega) (by simp [hhigh, hlow]) (by omega)
  rw [hexPair, hexDigit_eq_digitChar hhigh, hexDigit_eq_digitChar hlow,
    readNat_of_ne_plus hplus, ← hjoin, ← hread, hjoin]
  rfl

/-! ### Which texts are read -/

/-- A text of digits, of which there is one at least, that make up `n`. -/
structure IsMagnitude (b : Nat) (cs : List Char) (n : Nat) : Prop where
  ne_nil : cs ≠ []
  digits : ∃ ds, cs.map (digit? b) = ds.map some ∧ joinDigits b ds 0 = n

/-- A text is one of digits if its first character is one and the others are. -/
theorem map_digit?_cons_eq_iff {b : Nat} {c : Char} {cs : List Char} {ds : List Nat} :
    (c :: cs).map (digit? b) = ds.map some ↔
      ∃ d es, ds = d :: es ∧ digit? b c = some d ∧ cs.map (digit? b) = es.map some := by
  rw [List.map_cons]
  constructor
  · intro h
    cases ds with
    | nil => cases h
    | cons d es =>
      obtain ⟨hd, hes⟩ := List.cons.inj h
      exact ⟨d, es, rfl, hd, hes⟩
  · rintro ⟨d, es, rfl, hd, hes⟩
    rw [List.map_cons, hd, hes]

/-- Digits make up one number only. -/
theorem IsMagnitude.unique {b : Nat} {cs : List Char} {n m : Nat} (h : IsMagnitude b cs n)
    (h' : IsMagnitude b cs m) : n = m := by
  obtain ⟨ds, hds, rfl⟩ := h.digits
  obtain ⟨es, hes, rfl⟩ := h'.digits
  have hsame : ds.map some = es.map some := hds.symm.trans hes
  rw [(List.map_inj_right fun _ _ => Option.some.inj).mp hsame]

/-- The first character of digits is a digit. -/
theorem IsMagnitude.exists_cons {b : Nat} {cs : List Char} {n : Nat} (h : IsMagnitude b cs n) :
    ∃ c d rest, cs = c :: rest ∧ digit? b c = some d := by
  obtain ⟨ds, hds, -⟩ := h.digits
  cases cs with
  | nil => exact absurd rfl h.ne_nil
  | cons c rest =>
    obtain ⟨d, es, -, hd, -⟩ := map_digit?_cons_eq_iff.mp hds
    exact ⟨c, d, rest, rfl, hd⟩

/-- Every character of digits is a digit. -/
theorem IsMagnitude.digit {b : Nat} {cs : List Char} {n : Nat} (h : IsMagnitude b cs n) :
    ∀ c ∈ cs, ∃ d, digit? b c = some d := by
  obtain ⟨ds, hds, -⟩ := h.digits
  intro c hc
  have hmem : digit? b c ∈ ds.map some := hds ▸ List.mem_map.mpr ⟨c, hc, rfl⟩
  obtain ⟨d, -, hd⟩ := List.mem_map.mp hmem
  exact ⟨d, hd.symm⟩

/-- Digits are read exactly if the number that they make up is in the range. -/
theorem readDigits_eq_ok_iff {b limit : Nat} (hb : 0 < b) {cs : List Char} {value n : Nat}
    (hvalue : value ≤ limit) :
    readDigits b limit cs value = .ok n ↔
      ∃ ds, cs.map (digit? b) = ds.map some ∧ joinDigits b ds value = n ∧ n ≤ limit := by
  induction cs generalizing value with
  | nil =>
    constructor
    · intro h
      obtain rfl := Except.ok.inj h
      exact ⟨[], rfl, rfl, hvalue⟩
    · rintro ⟨ds, hds, hjoin, -⟩
      obtain rfl : ds = [] := List.map_eq_nil_iff.mp hds.symm
      exact congrArg Except.ok hjoin
  | cons c cs ih =>
    simp only [map_digit?_cons_eq_iff]
    rw [readDigits]
    cases hdigit : digit? b c with
    | none =>
      constructor
      · intro h
        cases h
      · rintro ⟨_, ⟨d, es, -, hd, -⟩, -⟩
        cases hd
    | some d =>
      show (if limit < value * b + d then Except.error NumeralError.tooLarge else _) = _ ↔ _
      by_cases hout : limit < value * b + d
      · -- The digits behind make the number no smaller, so it is out of range as a whole.
        rw [if_pos hout]
        constructor
        · intro h
          cases h
        · rintro ⟨_, ⟨e, es, rfl, he, -⟩, rfl, hle⟩
          obtain rfl := Option.some.inj he
          have hmore := le_joinDigits hb es (value * b + d)
          rw [joinDigits_cons] at hle
          omega
      · rw [if_neg hout, ih (by omega)]
        constructor
        · rintro ⟨es, hes, hjoin, hle⟩
          exact ⟨d :: es, ⟨d, es, rfl, rfl, hes⟩, hjoin, hle⟩
        · rintro ⟨_, ⟨e, es, rfl, he, hes⟩, hjoin, hle⟩
          obtain rfl := Option.some.inj he
          exact ⟨es, hes, hjoin, hle⟩

/-- Without a sign the texts are read that consist of digits of a number in the range. -/
theorem readMagnitude_eq_ok_iff {b limit : Nat} (hb : 0 < b) {cs : List Char} {n : Nat} :
    readMagnitude b limit cs = .ok n ↔ IsMagnitude b cs n ∧ n ≤ limit := by
  cases cs with
  | nil =>
    constructor
    · intro h
      cases h
    · rintro ⟨h, -⟩
      exact absurd rfl h.ne_nil
  | cons c cs =>
    show readDigits b limit (c :: cs) 0 = .ok n ↔ _
    rw [readDigits_eq_ok_iff hb (Nat.zero_le limit)]
    constructor
    · rintro ⟨ds, hds, hjoin, hle⟩
      exact ⟨⟨List.cons_ne_nil c cs, ds, hds, hjoin⟩, hle⟩
    · rintro ⟨⟨-, ds, hds, hjoin⟩, hle⟩
      exact ⟨ds, hds, hjoin, hle⟩

/-! ### Which texts are read with a sign -/

/-- A sign is no digit, whatever the radix is. -/
theorem ne_sign_of_digit? {b : Nat} {c : Char} {d : Nat} (h : digit? b c = some d) :
    c ≠ '+' ∧ c ≠ '-' := by
  have hnone : ∀ c, hexDigit? c = none → digit? b c ≠ some d := by
    intro c hc hd
    unfold digit? at hd
    rw [hc] at hd
    cases hd
  constructor
  · rintro rfl
    exact hnone '+' (by decide) h
  · rintro rfl
    exact hnone '-' (by decide) h

/-- A text of digits that make up an integer, with a sign in front or without. -/
inductive IsSigned (b : Nat) : List Char → Int → Prop
  | unsigned {cs : List Char} {n : Nat} : IsMagnitude b cs n → IsSigned b cs n
  | plus {cs : List Char} {n : Nat} : IsMagnitude b cs n → IsSigned b ('+' :: cs) n
  | minus {cs : List Char} {n : Nat} : IsMagnitude b cs n → IsSigned b ('-' :: cs) (-(n : Int))

theorem IsMagnitude.ne_sign {b : Nat} {c : Char} {cs : List Char} {n : Nat}
    (h : IsMagnitude b (c :: cs) n) : c ≠ '+' ∧ c ≠ '-' := by
  obtain ⟨d, hd⟩ := h.digit c List.mem_cons_self
  exact ne_sign_of_digit? hd

/-- Behind a plus sign an integer is a number in digits. -/
theorem isSigned_plus_iff {b : Nat} {cs : List Char} {i : Int} :
    IsSigned b ('+' :: cs) i ↔ ∃ n : Nat, IsMagnitude b cs n ∧ i = n := by
  constructor
  · intro h
    cases h with
    | unsigned h => exact absurd rfl h.ne_sign.1
    | plus h => exact ⟨_, h, rfl⟩
  · rintro ⟨n, h, rfl⟩
    exact .plus h

/-- Behind a minus sign it is one that is taken off zero. -/
theorem isSigned_minus_iff {b : Nat} {cs : List Char} {i : Int} :
    IsSigned b ('-' :: cs) i ↔ ∃ n : Nat, IsMagnitude b cs n ∧ i = -(n : Int) := by
  constructor
  · intro h
    cases h with
    | unsigned h => exact absurd rfl h.ne_sign.2
    | minus h => exact ⟨_, h, rfl⟩
  · rintro ⟨n, h, rfl⟩
    exact .minus h

/-- Without a sign in front an integer is a number in digits. -/
theorem isSigned_iff_of_ne_sign {b : Nat} {cs : List Char} {i : Int}
    (hplus : ∀ rest, cs ≠ '+' :: rest) (hminus : ∀ rest, cs ≠ '-' :: rest) :
    IsSigned b cs i ↔ ∃ n : Nat, IsMagnitude b cs n ∧ i = n := by
  constructor
  · intro h
    cases h with
    | unsigned h => exact ⟨_, h, rfl⟩
    | plus => exact absurd rfl (hplus _)
    | minus => exact absurd rfl (hminus _)
  · rintro ⟨n, h, rfl⟩
    exact .unsigned h

/-- In digits the integers are read that are at least zero and below the bound. -/
theorem map_readMagnitude_eq_ok_iff {b bound : Nat} (hb : 0 < b) (hbound : 0 < bound)
    {cs : List Char} {i : Int} :
    (readMagnitude b (bound - 1) cs).map Int.ofNat = .ok i ↔
      (∃ n : Nat, IsMagnitude b cs n ∧ i = n) ∧ -(bound : Int) ≤ i ∧ i < bound := by
  constructor
  · intro h
    cases hread : readMagnitude b (bound - 1) cs with
    | error e =>
      rw [hread] at h
      cases h
    | ok n =>
      rw [hread] at h
      obtain ⟨hn, hle⟩ := (readMagnitude_eq_ok_iff hb).mp hread
      obtain rfl : (n : Int) = i := Except.ok.inj h
      exact ⟨⟨n, hn, rfl⟩, by omega, by omega⟩
  · rintro ⟨⟨n, hn, rfl⟩, -, hlt⟩
    rw [(readMagnitude_eq_ok_iff hb).mpr ⟨hn, by omega⟩]
    rfl

/-- Integers are read that are written in digits, with a sign in front or without, and are in the
range; the least of them has no positive counterpart. -/
theorem readInt_eq_ok_iff {b bound : Nat} (hb : 0 < b) (hbound : 0 < bound) {cs : List Char}
    {i : Int} :
    readInt b bound cs = .ok i ↔ IsSigned b cs i ∧ -(bound : Int) ≤ i ∧ i < bound := by
  -- The cases are those of the reader: nothing, a plus sign, a minus sign, anything else.
  unfold readInt
  split
  · constructor
    · intro h
      cases h
    · rintro ⟨h, -⟩
      cases h with
      | unsigned h => exact absurd rfl h.ne_nil
  · next cs => rw [isSigned_plus_iff, map_readMagnitude_eq_ok_iff hb hbound]
  · next cs =>
    rw [isSigned_minus_iff]
    constructor
    · intro h
      cases hread : readMagnitude b bound cs with
      | error e =>
        rw [hread] at h
        cases e <;> cases h
      | ok n =>
        rw [hread] at h
        obtain ⟨hn, hle⟩ := (readMagnitude_eq_ok_iff hb).mp hread
        obtain rfl : -(n : Int) = i := Except.ok.inj h
        exact ⟨⟨n, hn, rfl⟩, by omega, by omega⟩
    · rintro ⟨⟨n, hn, rfl⟩, hle, -⟩
      rw [(readMagnitude_eq_ok_iff hb).mpr ⟨hn, by omega⟩]
      rfl
  · next hnil hplus hminus =>
    have hsame : readDigits b (bound - 1) cs 0 = readMagnitude b (bound - 1) cs := by
      cases cs with
      | nil => exact absurd rfl hnil
      | cons c cs => rfl
    rw [isSigned_iff_of_ne_sign hplus hminus, hsame, map_readMagnitude_eq_ok_iff hb hbound]

theorem wordValues_pos (bits : Nat) : 0 < wordValues bits :=
  Nat.two_pow_pos bits

/-- A signed number of 32 bits is read from the texts of digits that make up its value. -/
theorem readInt32_eq_ok_iff {cs : List Char} {c : Int32} :
    readInt32 cs = .ok c ↔ IsSigned 10 cs c.toInt := by
  have hbound := wordValues_pos 31
  unfold readInt32
  constructor
  · intro h
    cases hread : readInt 10 (wordValues 31) cs with
    | error e =>
      rw [hread] at h
      cases h
    | ok i =>
      rw [hread] at h
      obtain ⟨hi, hle, hlt⟩ := (readInt_eq_ok_iff (by decide) hbound).mp hread
      obtain rfl := Except.ok.inj h
      rwa [Int32.toInt_ofInt_of_le hle hlt]
  · intro h
    rw [(readInt_eq_ok_iff (by decide) hbound).mpr ⟨h, c.le_toInt, c.toInt_lt⟩]
    exact congrArg Except.ok c.ofInt_toInt

end Provisioning.Numeral
