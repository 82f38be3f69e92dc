import Provisioning.Proofs.Numeral

/-! # Numbers that are read as text

    A number is read from digits, with a plus sign in front of them or without, if it is no greater
    than a limit. Any other text has one fault, and which one it is depends on the text alone: the
    text is empty, or it begins with a number beyond the limit, or it is no number.

    Main statements: `readNat_eq_ok_iff`, which texts are read, and `readNat_eq_error_iff`, what is
    wrong with the others.
-/

namespace Provisioning.Numeral

/-- A text of digits that make up a number, with a plus sign in front or without. -/
inductive IsNatural (b : Nat) : List Char → Nat → Prop
  | plain {cs : List Char} {n : Nat} : IsMagnitude b cs n → IsNatural b cs n
  | plus {cs : List Char} {n : Nat} : IsMagnitude b cs n → IsNatural b ('+' :: cs) n

variable {b limit : Nat} {cs : List Char}

/-- Behind a plus sign there are digits only. -/
theorem isNatural_plus_iff {n : Nat} : IsNatural b ('+' :: cs) n ↔ IsMagnitude b cs n := by
  constructor
  · intro h
    cases h with
    | plain h => exact absurd rfl h.ne_sign.1
    | plus h => exact h
  · exact .plus

/-- Without a plus sign in front the whole text is digits. -/
theorem isNatural_cons_iff {c : Char} (hc : c ≠ '+') {n : Nat} :
    IsNatural b (c :: cs) n ↔ IsMagnitude b (c :: cs) n := by
  constructor
  · intro h
    cases h with
    | plain h => exact h
    | plus => exact absurd rfl hc
  · exact .plain

theorem not_isNatural_nil {n : Nat} : ¬ IsNatural b [] n := by
  intro h
  cases h with
  | plain h => exact h.ne_nil rfl

/-- A text is a number in one way at most. -/
theorem IsNatural.unique {n m : Nat} (h : IsNatural b cs n) (h' : IsNatural b cs m) : n = m := by
  cases h with
  | plain h =>
    obtain ⟨c, d, more, rfl, hc⟩ := h.exists_cons
    exact h.unique ((isNatural_cons_iff (ne_sign_of_digit? hc).1).mp h')
  | plus h => exact h.unique (isNatural_plus_iff.mp h')

/-! ### Which texts are read -/

/-- Without a plus sign in front the whole text is read as digits. -/
theorem readNat_cons {c : Char} (hc : c ≠ '+') :
    readNat b limit (c :: cs) = readMagnitude b limit (c :: cs) :=
  readNat_of_ne_plus hc

/-- Numbers are read that are written in digits, with a plus sign in front or without, and are no
greater than the limit. -/
theorem readNat_eq_ok_iff (hb : 0 < b) {n : Nat} :
    readNat b limit cs = .ok n ↔ IsNatural b cs n ∧ n ≤ limit := by
  cases cs with
  | nil =>
    constructor
    · intro h
      cases h
    · rintro ⟨h, -⟩
      exact absurd h not_isNatural_nil
  | cons c cs =>
    by_cases hc : c = '+'
    · subst hc
      show readMagnitude b limit cs = .ok n ↔ _
      rw [isNatural_plus_iff, readMagnitude_eq_ok_iff hb]
    · rw [isNatural_cons_iff hc, readNat_cons hc, readMagnitude_eq_ok_iff hb]

/-! ### What is wrong with the others -/

/-- What is wrong with a text that is not read as a number up to `limit`. -/
inductive IsFault (b limit : Nat) (cs : List Char) : NumeralError → Prop
  | empty : cs = [] → IsFault b limit cs .empty
  /-- The digits lead beyond the limit, whatever follows them. -/
  | tooLarge {front rest : List Char} {n : Nat} :
      cs = front ++ rest → IsNatural b front n → limit < n → IsFault b limit cs .tooLarge
  /-- Something else than a digit stands before the digits lead beyond the limit. -/
  | invalidDigit : cs ≠ [] → (∀ n, ¬ IsNatural b cs n) →
      (∀ front rest n, cs = front ++ rest → IsNatural b front n → n ≤ limit) →
      IsFault b limit cs .invalidDigit

/-- Digits that lead beyond the limit are refused, whatever follows them. -/
theorem readDigits_eq_tooLarge {front rest : List Char} {ds : List Nat} {value : Nat}
    (hds : front.map (digit? b) = ds.map some) (hvalue : value ≤ limit)
    (hlarge : limit < joinDigits b ds value) :
    readDigits b limit (front ++ rest) value = .error .tooLarge := by
  -- `value` is what the digits before have come to; it grows until it is beyond the limit.
  induction front generalizing ds value with
  | nil =>
    obtain rfl : ds = [] := List.map_eq_nil_iff.mp hds.symm
    exact absurd hlarge (Nat.not_lt.mpr hvalue)
  | cons c front ih =>
    obtain ⟨d, es, rfl, hd, hes⟩ := map_digit?_cons_eq_iff.mp hds
    simp only [List.cons_append, readDigits, hd]
    by_cases hout : limit < value * b + d
    · rw [if_pos hout]
    · rw [if_neg hout]
      exact ih hes (Nat.not_lt.mp hout) hlarge

/-- What is not digits throughout is refused for that, if its digits do not lead beyond the limit
before. -/
theorem readDigits_eq_invalidDigit {value : Nat}
    (hnot : ∀ ds : List Nat, cs.map (digit? b) ≠ ds.map some)
    (hfront : ∀ (front rest : List Char) (ds : List Nat), cs = front ++ rest →
      front.map (digit? b) = ds.map some → joinDigits b ds value ≤ limit) :
    readDigits b limit cs value = .error .invalidDigit := by
  -- Each digit is taken, since what it leads to is not beyond the limit, up to what is no digit.
  induction cs generalizing value with
  | nil => exact absurd rfl (hnot [])
  | cons c cs ih =>
    rw [readDigits]
    cases hd : digit? b c with
    | none => rfl
    | some d =>
      have hle : value * b + d ≤ limit := hfront [c] cs [d] rfl (by simp [hd])
      simp only [if_neg (Nat.not_lt.mpr hle)]
      apply ih
      · intro ds hds
        exact hnot (d :: ds) (map_digit?_cons_eq_iff.mpr ⟨d, ds, rfl, hd, hds⟩)
      · rintro front rest ds rfl hds
        exact hfront (c :: front) rest (d :: ds) rfl
          (map_digit?_cons_eq_iff.mpr ⟨d, ds, rfl, hd, hds⟩)

theorem readMagnitude_eq_tooLarge {front rest : List Char} {n : Nat}
    (h : IsMagnitude b front n) (hlarge : limit < n) :
    readMagnitude b limit (front ++ rest) = .error .tooLarge := by
  obtain ⟨ds, hds, rfl⟩ := h.digits
  obtain ⟨c, d, front, rfl, -⟩ := h.exists_cons
  exact readDigits_eq_tooLarge hds (Nat.zero_le limit) hlarge

theorem readMagnitude_eq_invalidDigit (hnot : ∀ n, ¬ IsMagnitude b cs n)
    (hfront : ∀ front rest n, cs = front ++ rest → IsMagnitude b front n → n ≤ limit) :
    readMagnitude b limit cs = .error .invalidDigit := by
  cases cs with
  | nil => rfl
  | cons c cs =>
    apply readDigits_eq_invalidDigit
    · intro ds hds
      exact hnot _ ⟨List.cons_ne_nil c cs, ds, hds, rfl⟩
    · intro front rest ds hcs hds
      cases front with
      | nil =>
        obtain rfl : ds = [] := List.map_eq_nil_iff.mp hds.symm
        exact Nat.zero_le limit
      | cons a front => exact hfront _ rest _ hcs ⟨List.cons_ne_nil a front, ds, hds, rfl⟩

/-- A fault is what is reported. -/
theorem readNat_of_isFault {e : NumeralError} (h : IsFault b limit cs e) :
    readNat b limit cs = .error e := by
  cases h with
  | empty hcs =>
    subst hcs
    rfl
  | @tooLarge front rest n hcs hnatural hlarge =>
    subst hcs
    cases hnatural with
    | plain hdigits =>
      obtain ⟨c, d, more, rfl, hc⟩ := hdigits.exists_cons
      rw [List.cons_append, readNat_cons (ne_sign_of_digit? hc).1]
      exact readMagnitude_eq_tooLarge hdigits hlarge
    | plus hdigits => exact readMagnitude_eq_tooLarge hdigits hlarge
  | invalidDigit hne hnot hfront =>
    obtain ⟨c, cs, rfl⟩ := List.exists_cons_of_ne_nil hne
    by_cases hc : c = '+'
    · subst hc
      apply readMagnitude_eq_invalidDigit
      · intro n hn
        exact hnot n (.plus hn)
      · rintro front rest n rfl hn
        exact hfront ('+' :: front) rest n rfl (.plus hn)
    · rw [readNat_cons hc]
      apply readMagnitude_eq_invalidDigit
      · intro n hn
        exact hnot n (.plain hn)
      · intro front rest n hcs hn
        exact hfront front rest n hcs (.plain hn)

/-- What is not read as a number has a fault. -/
theorem exists_isFault (h : ∀ n, IsNatural b cs n → limit < n) : ∃ e, IsFault b limit cs e := by
  by_cases hnil : cs = []
  · exact ⟨.empty, .empty hnil⟩
  by_cases hlarge : ∃ front rest n, cs = front ++ rest ∧ IsNatural b front n ∧ limit < n
  · obtain ⟨front, rest, n, hcs, hn, hlt⟩ := hlarge
    exact ⟨.tooLarge, .tooLarge hcs hn hlt⟩
  -- Nothing in front of the text is beyond the limit, so the text itself is no number.
  have hfront : ∀ front rest n, cs = front ++ rest → IsNatural b front n → n ≤ limit := by
    intro front rest n hcs hn
    exact Nat.not_lt.mp fun hlt => hlarge ⟨front, rest, n, hcs, hn, hlt⟩
  refine ⟨.invalidDigit, .invalidDigit hnil ?_ hfront⟩
  intro n hn
  exact absurd (h n hn) (Nat.not_lt.mpr (hfront cs [] n (by simp) hn))

/-- The fault of a text is what it is refused for. -/
theorem readNat_eq_error_iff (hb : 0 < b) {e : NumeralError} :
    readNat b limit cs = .error e ↔ IsFault b limit cs e := by
  constructor
  · intro h
    have hlarge : ∀ n, IsNatural b cs n → limit < n := by
      intro n hn
      apply Nat.not_le.mp
      intro hle
      rw [(readNat_eq_ok_iff hb).mpr ⟨hn, hle⟩] at h
      cases h
    obtain ⟨e', hfault⟩ := exists_isFault hlarge
    rw [readNat_of_isFault hfault] at h
    obtain rfl := Except.error.inj h
    exact hfault
  · exact readNat_of_isFault

end Provisioning.Numeral
