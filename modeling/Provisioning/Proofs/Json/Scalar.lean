import Provisioning.Json.Parser
import Provisioning.Json.Printer
import Provisioning.Proofs.Datum
import Provisioning.Proofs.Numeral

/-! # Strings and numbers in JSON text

    What the writer writes for a string or an integer, the reader reads back, whatever follows.
    Main statements: `readString_stringText`, for every text, and `readNumber_signedDecimal`, for
    every integer of 64 bits.
-/

namespace Provisioning.Json

/-! ### Strings -/

/-- The scalar values of a text are no surrogates. -/
theorem toNat_not_surrogate (c : Char) : ¬ (0xd800 ≤ c.toNat ∧ c.toNat < 0xe000) := by
  have hvalid : c.toNat < 0xd800 ∨ 0xdfff < c.toNat ∧ c.toNat < 0x110000 := c.valid
  omega

/-- Code points of a text make up the text. -/
theorem joinCodes_map_toNat (cs : List Char) : joinCodes (cs.map Char.toNat) = some cs := by
  induction cs with
  | nil => rfl
  | cons c cs ih =>
    have hc := toNat_not_surrogate c
    have hhigh : ¬ (0xd800 ≤ c.toNat ∧ c.toNat < 0xdc00) := by omega
    have hlow : ¬ (0xdc00 ≤ c.toNat ∧ c.toNat < 0xe000) := by omega
    rw [List.map_cons, joinCodes.eq_def]
    simp only [if_neg hhigh, if_neg hlow, ih]
    simp [Char.ofNat_toNat]

/-- An escape by four digits of a control character is read as its code. -/
theorem hex4?_hexDigits {n : Nat} (hn : n < 32) :
    hex4? '0' '0' (Numeral.hexDigit (n / 16)) (Numeral.hexDigit (n % 16)) = some n := by
  have hzero : Numeral.hexDigit? '0' = some 0 := by decide
  have hhigh := Numeral.hexDigit?_hexDigit (show n / 16 < 16 by omega)
  have hlow := Numeral.hexDigit?_hexDigit (show n % 16 < 16 by omega)
  have hjoin : ((0 * 16 + 0) * 16 + n / 16) * 16 + n % 16 = n := by omega
  simp [hex4?, hzero, hhigh, hlow]
  omega

/-- The form of a character inside a string is read as that character. -/
theorem readCodes_charText (c : Char) (rest : List Char) :
    readCodes (charText c ++ rest) = (readCodes rest).map fun r => (c.toNat :: r.1, r.2) := by
  by_cases hquote : c = '"'
  · subst hquote; simp [charText, readCodes, escaped?]
  by_cases hslash : c = '\\'
  · subst hslash; simp [charText, readCodes, escaped?]
  by_cases h8 : c.toNat = 8
  · simp [charText, hquote, hslash, h8, readCodes, escaped?]
  by_cases h12 : c.toNat = 12
  · simp [charText, hquote, hslash, h12, readCodes, escaped?]
  by_cases hn : c = '\n'
  · subst hn; simp [charText, readCodes, escaped?]
  by_cases hr : c = '\r'
  · subst hr; simp [charText, readCodes, escaped?]
  by_cases ht : c = '\t'
  · subst ht; simp [charText, readCodes, escaped?]
  by_cases hlt : c.toNat < 32
  · -- The other control characters are written as `\u` and four digits.
    simp [charText, hquote, hslash, h8, h12, hn, hr, ht, hlt, readCodes, hex4?_hexDigits hlt]
  · -- What is left stands for itself: neither a quote nor a backslash nor a control character.
    have hplain : charText c = [c] := by
      simp [charText, hquote, hslash, h8, h12, hn, hr, ht, hlt]
    rw [hplain, List.singleton_append, readCodes]
    · simp [hslash, hlt]
    · simpa using hquote
    · intro a b d e more h
      exact absurd h hslash
    · intro d more h
      exact absurd h hslash

theorem readCodes_flatMap_charText (cs rest : List Char) :
    readCodes (cs.flatMap charText ++ '"' :: rest) = some (cs.map Char.toNat, rest) := by
  induction cs with
  | nil => simp [readCodes]
  | cons c cs ih =>
    rw [List.flatMap_cons, List.append_assoc, readCodes_charText, ih]
    rfl

/-- A string is read back from behind its opening quote. -/
theorem readString_stringText (s : String) (rest : List Char) :
    readString (s.toList.flatMap charText ++ '"' :: rest) = some (some s, rest) := by
  rw [readString, readCodes_flatMap_charText]
  simp [joinCodes_map_toNat, String.ofList_toList]

/-! ### Integers -/

/-- What follows does not go on with a number. -/
def EndsNumber (rest : List Char) : Prop :=
  ∀ c ∈ rest.head?, Numeral.digit? 10 c = none ∧ c ≠ '.' ∧ c ≠ 'e' ∧ c ≠ 'E'

theorem readDigits_digitChars {ds : List Nat} (hds : ∀ d ∈ ds, d < 10) {rest : List Char}
    (hrest : EndsNumber rest) : readDigits (ds.map Nat.digitChar ++ rest) = (ds, rest) := by
  induction ds with
  | nil =>
    cases rest with
    | nil => rfl
    | cons c rest =>
      have hc : Numeral.digit? 10 c = none := (hrest c (by simp)).1
      simp [readDigits, hc]
  | cons d ds ih =>
    have hd := Numeral.digit?_digitChar (b := 10) (by omega) (hds d (by simp))
    have hmore := ih (fun e he => hds e (by simp [he]))
    simp [readDigits, hd, hmore]

theorem readFraction_of_endsNumber {rest : List Char} (h : EndsNumber rest) :
    readFraction rest = some (none, rest) := by
  rw [readFraction]
  intro cs hcs
  exact (h '.' (by simp [hcs])).2.1 rfl

theorem readExponent_of_endsNumber {rest : List Char} (h : EndsNumber rest) :
    readExponent rest = some (none, rest) := by
  cases rest with
  | nil => rfl
  | cons c rest =>
    obtain ⟨-, -, he, hE⟩ := h c (by simp)
    simp [readExponent, he, hE]

theorem readWhole_toDigits {n : Nat} {ds : List Nat} (hds : Numeral.Digits 10 n ds)
    {rest : List Char} (hrest : EndsNumber rest) :
    readWhole (Nat.toDigits 10 n ++ rest) = some (ds, rest) := by
  have hread := readDigits_digitChars hds.lt hrest
  rw [hds.chars, readWhole, hread]
  -- A zero in front would have to be the only digit, and so it is.
  obtain ⟨d, more, hcons, hzero⟩ := hds.first
  cases d with
  | zero => simp [hcons, hzero rfl]
  | succ d => simp [hcons]

/-- Digits of a number of 64 bits are all taken. -/
theorem extend64_eq {ds : List Nat} {value : Nat}
    (hle : Numeral.joinDigits 10 ds value < Numeral.wordValues 64) :
    extend64 ds value = (Numeral.joinDigits 10 ds value, ds.length) := by
  induction ds generalizing value with
  | nil => rfl
  | cons d ds ih =>
    have hstep := Numeral.le_joinDigits (b := 10) (by omega) ds (value * 10 + d)
    rw [Numeral.joinDigits_cons] at hle
    have hnot : ¬ Numeral.wordValues 64 ≤ value * 10 + d := by omega
    simp [extend64, hnot, ih hle]

/-- The number that is written with the given sign and digits. -/
theorem value_whole {n : Nat} {ds : List Nat} (hds : Numeral.Digits 10 n ds) (negative : Bool)
    (hn : if negative then n ≠ 0 ∧ n ≤ 0x8000000000000000 else n < 0x10000000000000000) :
    NumberText.value ⟨negative, ds, none, none⟩
      = .number (.integer (if negative then -(n : Int) else n)) := by
  have h64 : Numeral.wordValues 64 = 0x10000000000000000 := rfl
  have h63 : Numeral.wordValues 63 = 0x8000000000000000 := rfl
  have hlt : Numeral.joinDigits 10 ds 0 < Numeral.wordValues 64 := by
    rw [hds.value, h64]
    cases negative <;> simp at hn <;> omega
  have hextend := extend64_eq hlt
  rw [hds.value] at hextend
  cases negative with
  | false => simp [NumberText.value, hextend]
  | true =>
    have hpos : ¬ (n = 0 ∨ Numeral.wordValues 63 < n) := by
      rw [h63]
      simp at hn
      omega
    simp [NumberText.value, hextend, hpos]

/-- An integer of 64 bits is read back. -/
theorem readNumber_signedDecimal {i : Int} (hi : FitsWord i) {rest : List Char}
    (hrest : EndsNumber rest) :
    readNumber (Numeral.signedDecimal i ++ rest) = some (.number (.integer i), rest) := by
  obtain ⟨hlo, hhi⟩ := hi
  cases i with
  | ofNat n =>
    obtain ⟨ds, hds⟩ := Numeral.exists_digits (b := 10) (by omega) n
    have hwhole := readWhole_toDigits hds hrest
    have hvalue := value_whole hds false (by simp at hhi ⊢; omega)
    obtain ⟨d, more, hd, hcons⟩ := Numeral.exists_toDigits_eq_cons (b := 10) (by omega) n
    have hminus : Nat.digitChar d ≠ '-' := Numeral.digitChar_ne (by omega) hd (by decide)
    have htext : readNumberText (Nat.toDigits 10 n ++ rest)
        = some (⟨false, ds, none, none⟩, rest) := by
      rw [hcons] at hwhole ⊢
      simp [readNumberText, hminus] at hwhole ⊢
      simp [hwhole, readFraction_of_endsNumber hrest, readExponent_of_endsNumber hrest]
    simp [Numeral.signedDecimal, Numeral.decimal, readNumber, htext, hvalue]
  | negSucc n =>
    obtain ⟨ds, hds⟩ := Numeral.exists_digits (b := 10) (by omega) (n + 1)
    have hwhole := readWhole_toDigits hds hrest
    have hvalue := value_whole hds true (by simp; omega)
    have htext : readNumberText ('-' :: (Nat.toDigits 10 (n + 1) ++ rest))
        = some (⟨true, ds, none, none⟩, rest) := by
      simp [readNumberText, hwhole, readFraction_of_endsNumber hrest,
        readExponent_of_endsNumber hrest]
    simp [Numeral.signedDecimal, Numeral.decimal, readNumber, htext, hvalue]
    omega

end Provisioning.Json
