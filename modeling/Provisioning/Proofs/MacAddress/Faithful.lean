import Provisioning.Proofs.Codec
import Provisioning.Proofs.Numeral.Hexadecimal

/-! # MAC addresses and their texts stand for each other

    The text of an address is read back, and so is every other text that differs from it in the
    case of letters: a text may be put into lower case before it is read.

    All texts of addresses have their bytes in the same places, and of two bytes the smaller one is
    written first in the order of characters, since the decimal digits come before the small
    letters. So the order of addresses is the order of their texts.

    Main statement: `texts_faithful`.
-/

namespace Provisioning.MacAddress

open Numeral (hexDigit hexPair)

/-! ### Letters of either case -/

/-- Putting letters into lower case moves no colon. -/
theorem splitOnChar_map_toLower (cs : List Char) :
    splitOnChar ':' (cs.map Char.toLower) = (splitOnChar ':' cs).map (List.map Char.toLower) := by
  induction cs with
  | nil => rfl
  | cons c cs ih =>
    have hcolon : c.toLower = ':' ↔ c = ':' := Numeral.toLower_eq_iff (.inr rfl)
    rw [List.map_cons, splitOnChar, splitOnChar, ih]
    by_cases hc : c = ':'
    · rw [if_pos (hcolon.mpr hc), if_pos hc]
      rfl
    · rw [if_neg (fun h => hc (hcolon.mp h)), if_neg hc]
      cases splitOnChar ':' cs <;> rfl

theorem pair?_map_toLower (part : List Char) : pair? (part.map Char.toLower) = pair? part := by
  unfold pair?
  rw [List.length_map, Numeral.readNat_map_toLower]

/-- A text is read as what it is in lower case. -/
theorem ofString_toLower {s : String} {m : MacAddress} :
    ofString s.toLower = .ok m ↔ ofString s = .ok m := by
  have hpair : pair? ∘ List.map Char.toLower = pair? := funext pair?_map_toLower
  rw [ofString_eq_ok_iff, ofString_eq_ok_iff, Numeral.toList_toLower, splitOnChar_map_toLower,
    List.map_map, hpair]

/-- A text with any of its letters put into upper case. -/
inductive Raised : List Char → List Char → Prop
  | nil : Raised [] []
  | keep {c : Char} {cs ds : List Char} : Raised cs ds → Raised (c :: cs) (c :: ds)
  | raise {c : Char} {cs ds : List Char} : Raised cs ds → Raised (c :: cs) (c.toUpper :: ds)

/-- Letters that were small ones are put back. -/
theorem Raised.map_toLower {cs ds : List Char} (h : Raised cs ds)
    (hsmall : ∀ c ∈ cs, c.toLower = c ∧ c.toUpper.toLower = c) : ds.map Char.toLower = cs := by
  induction h with
  | nil => rfl
  | @keep c cs ds _ ih =>
    have hc := hsmall c List.mem_cons_self
    have hmore := ih fun d hd => hsmall d (List.mem_cons_of_mem c hd)
    rw [List.map_cons, hc.1, hmore]
  | @raise c cs ds _ ih =>
    have hc := hsmall c List.mem_cons_self
    have hmore := ih fun d hd => hsmall d (List.mem_cons_of_mem c hd)
    rw [List.map_cons, hc.2, hmore]

/-- Addresses are written in small letters. -/
theorem toLower_of_mem_byteChars {bytes : List UInt8} {c : Char} (hc : c ∈ byteChars bytes) :
    c.toLower = c ∧ c.toUpper.toLower = c := by
  have hdigit : ∀ d : Fin 16,
      (hexDigit d).toLower = hexDigit d ∧ (hexDigit d).toUpper.toLower = hexDigit d := by decide
  rcases exists_of_mem_byteChars hc with rfl | ⟨d, hd, rfl⟩
  · decide
  · exact hdigit ⟨d, hd⟩

theorem ofString_of_raised {m : MacAddress} {s : String}
    (h : Raised (toString m).toList s.toList) : ofString s = .ok m := by
  have hsmall : s.toLower = toString m := by
    apply String.toList_inj.mp
    rw [Numeral.toList_toLower]
    apply h.map_toLower
    intro c hc
    rw [toList_toString] at hc
    exact toLower_of_mem_byteChars hc
  rw [← ofString_toLower, hsmall, ofString_toString]

/-! ### Bytes -/

/-- Of bytes the address is made that has these bytes. -/
theorem ofBytes_eq_ok_iff {bytes : List UInt8} {m : MacAddress} :
    ofBytes bytes = .ok m ↔ m.bytes = bytes := by
  unfold ofBytes
  constructor
  · intro h
    split at h
    · obtain rfl := Except.ok.inj h
      rfl
    · cases h
  · rintro rfl
    exact dif_pos m.length_eq

theorem exists_ofBytes_iff {bytes : List UInt8} :
    (∃ m, ofBytes bytes = .ok m) ↔ bytes.length = 6 := by
  constructor
  · rintro ⟨m, hm⟩
    rw [← ofBytes_eq_ok_iff.mp hm, m.length_eq]
  · intro h
    exact ⟨⟨bytes, h⟩, ofBytes_eq_ok_iff.mpr rfl⟩

/-! ### Order -/

/-- The digits are in the order of their values. -/
theorem hexDigit_lt_iff {d e : Nat} (hd : d < 16) (he : e < 16) :
    hexDigit d < hexDigit e ↔ d < e := by
  have hall : ∀ d e : Fin 16, hexDigit d < hexDigit e ↔ d < e := by decide
  exact hall ⟨d, hd⟩ ⟨e, he⟩

theorem hexDigit_eq_iff {d e : Nat} (hd : d < 16) (he : e < 16) :
    hexDigit d = hexDigit e ↔ d = e := by
  constructor
  · intro h
    have hread := Numeral.hexDigit?_hexDigit hd
    rw [h, Numeral.hexDigit?_hexDigit he] at hread
    exact (Option.some.inj hread).symm
  · exact congrArg hexDigit

/-- The first byte that differs decides, and of it the first digit that does. -/
theorem hexPair_append_lt_iff (a b : UInt8) (x y : List Char) :
    hexPair a ++ x < hexPair b ++ y ↔ a < b ∨ a = b ∧ x < y := by
  have ha : a.toNat < 256 := a.toNat_lt
  have hb : b.toNat < 256 := b.toNat_lt
  have hhigh : a.toNat / 16 < 16 ∧ b.toNat / 16 < 16 := by omega
  have hlow : a.toNat % 16 < 16 ∧ b.toNat % 16 < 16 := by omega
  unfold hexPair
  simp only [List.cons_append, List.nil_append, List.cons_lt_cons_iff,
    hexDigit_lt_iff hhigh.1 hhigh.2, hexDigit_eq_iff hhigh.1 hhigh.2,
    hexDigit_lt_iff hlow.1 hlow.2, hexDigit_eq_iff hlow.1 hlow.2,
    UInt8.lt_iff_toNat_lt, ← UInt8.toNat_inj]
  -- What is left is arithmetic of quotients and remainders, apart from what follows.
  by_cases hxy : x < y
  · simp only [hxy, and_true]
    omega
  · simp only [hxy, and_false, or_false]
    omega

/-- Texts of as many bytes are in the order of the bytes. -/
theorem byteChars_lt_iff {as bs : List UInt8} (h : as.length = bs.length) :
    byteChars as < byteChars bs ↔ as < bs := by
  induction as generalizing bs with
  | nil =>
    obtain rfl : bs = [] := List.eq_nil_of_length_eq_zero h.symm
    simp [byteChars]
  | cons a as ih =>
    obtain ⟨b, bs, rfl⟩ := List.exists_cons_of_length_eq_add_one h.symm
    have hlength : as.length = bs.length := Nat.succ.inj h
    rw [List.cons_lt_cons_iff, ← ih hlength]
    -- Behind the first byte there is either nothing in both texts or a colon in both.
    cases as with
    | nil =>
      obtain rfl : bs = [] := List.eq_nil_of_length_eq_zero hlength.symm
      have hpair := hexPair_append_lt_iff a b [] []
      rwa [List.append_nil, List.append_nil] at hpair
    | cons a' as =>
      obtain ⟨b', bs, rfl⟩ := List.exists_cons_of_length_eq_add_one hlength.symm
      show hexPair a ++ ':' :: byteChars (a' :: as) < hexPair b ++ ':' :: byteChars (b' :: bs) ↔ _
      rw [hexPair_append_lt_iff, List.cons_lt_cons_self]

theorem compareBytes_eq (as bs : List UInt8) : compareBytes as bs = compareOfLessAndEq as bs := by
  induction as generalizing bs with
  | nil => cases bs <;> rfl
  | cons a as ih =>
    cases bs with
    | nil => rfl
    | cons b bs =>
      rw [compareBytes, ih, Nat.compare_eq_ite_lt]
      -- The first bytes decide unless they are the same.
      rcases Nat.lt_trichotomy a.toNat b.toNat with hlt | heq | hgt
      · have hless : a :: as < b :: bs :=
          List.cons_lt_cons_iff.mpr (.inl (UInt8.lt_iff_toNat_lt.mpr hlt))
        rw [if_pos hlt]
        exact (if_pos hless).symm
      · obtain rfl := UInt8.toNat_inj.mp heq
        simp [compareOfLessAndEq, List.cons_lt_cons_self]
      · have hle : ¬ a :: as < b :: bs := by
          rw [List.cons_lt_cons_iff, UInt8.lt_iff_toNat_lt, ← UInt8.toNat_inj]
          omega
        have hne : a :: as ≠ b :: bs := by
          intro h
          rw [(List.cons.inj h).1] at hgt
          exact Nat.lt_irrefl _ hgt
        rw [if_neg (Nat.lt_asymm hgt), if_pos hgt]
        exact ((if_neg hle).trans (if_neg hne)).symm

/-- Addresses have the same text only if they are the same. -/
theorem toString_eq_iff {m n : MacAddress} : toString m = toString n ↔ m = n :=
  (Codec.injective_of_read_write ofString_toString).eq_iff

theorem toString_lt_iff {m n : MacAddress} : toString m < toString n ↔ m.bytes < n.bytes := by
  rw [String.lt_iff, toList_toString, toList_toString]
  exact byteChars_lt_iff (m.length_eq.trans n.length_eq.symm)

/-- Addresses are in the order of their texts. -/
theorem compare_toString (m n : MacAddress) :
    compare m n = compare (toString m) (toString n) := by
  have hbytes : m.bytes = n.bytes ↔ m = n := by
    cases m
    cases n
    rw [MacAddress.mk.injEq]
  calc compare m n = compareBytes m.bytes n.bytes := rfl
    _ = compareOfLessAndEq m.bytes n.bytes := compareBytes_eq m.bytes n.bytes
    _ = compareOfLessAndEq (toString m) (toString n) := by
        simp only [compareOfLessAndEq, toString_lt_iff, toString_eq_iff, hbytes]
    _ = compare (toString m) (toString n) := rfl

/-- The texts of MAC addresses stand for them. Each is read back, with any of its letters in upper
case as well; an address is made of six bytes and of no other number of them, and then holds these
bytes; and the order of the addresses is the order of their texts. -/
theorem texts_faithful :
    (∀ m : MacAddress, ofString (toString m) = .ok m) ∧
    (∀ (m : MacAddress) (s : String), Raised (toString m).toList s.toList → ofString s = .ok m) ∧
    (∀ bytes : List UInt8, (∃ m, ofBytes bytes = .ok m) ↔ bytes.length = 6) ∧
    (∀ (bytes : List UInt8) (m : MacAddress), ofBytes bytes = .ok m → m.bytes = bytes) ∧
    (∀ m n : MacAddress, compare m n = compare (toString m) (toString n)) := by
  refine ⟨ofString_toString, ?_, fun _ => exists_ofBytes_iff, ?_, compare_toString⟩
  · intro m s hs
    exact ofString_of_raised hs
  · intro bytes m hm
    exact ofBytes_eq_ok_iff.mp hm

/-- Six bytes, and their text with one of its two letters in upper case. -/
theorem texts_faithful_upper :
    ∃ m, ofBytes [0, 0x1a, 0, 0, 0, 0xb0] = .ok m ∧ m.bytes = [0, 0x1a, 0, 0, 0, 0xb0] ∧
      toString m = "00:1a:00:00:00:b0" ∧
      Raised (toString m).toList "00:1A:00:00:00:b0".toList ∧
      ofString "00:1A:00:00:00:b0" = .ok m := by
  obtain ⟨-, hraised, -, hbytes, -⟩ := texts_faithful
  have hmade : ofBytes [0, 0x1a, 0, 0, 0, 0xb0] = .ok ⟨[0, 0x1a, 0, 0, 0, 0xb0], rfl⟩ := rfl
  have hupper : Raised "00:1a:00:00:00:b0".toList "00:1A:00:00:00:b0".toList := by
    apply Raised.keep
    apply Raised.keep
    apply Raised.keep
    apply Raised.keep
    apply Raised.raise
    repeat apply Raised.keep
    exact Raised.nil
  exact ⟨_, hmade, hbytes _ _ hmade, rfl, hupper, hraised _ _ hupper⟩

end Provisioning.MacAddress
