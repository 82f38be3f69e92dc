import Provisioning.Address.Slash
import Provisioning.Proofs.Address.Text

/-! # Addresses with a length are read back from their text

    The text of an address holds no slash, so the first slash of the whole is the one that was
    written between the address and the length. Of a prefix the reader clears the host bits, which
    are clear already.
-/

namespace Provisioning

open Numeral (exists_digits decimal hexadecimal)

/-! ### The slash -/

theorem splitAtChar_append {c : Char} {cs : List Char} (hc : c ∉ cs) (rest : List Char) :
    splitAtChar c (cs ++ c :: rest) = some (cs, rest) := by
  induction cs with
  | nil => simp [splitAtChar]
  | cons d cs ih =>
    have hd : d ≠ c := fun h => hc (by simp [h])
    have hmore := ih (fun h => hc (by simp [h]))
    simp [splitAtChar, hd, hmore]

/-! ### Characters of addresses -/

/-- A character of the text of an address: a point, a colon or a digit. -/
def IsAddressChar (c : Char) : Prop :=
  c = '.' ∨ c = ':' ∨ ∃ d, d < 16 ∧ c = Nat.digitChar d

theorem IsAddressChar.ne_slash {c : Char} (h : IsAddressChar c) : c ≠ '/' := by
  rcases h with rfl | rfl | ⟨d, hd, rfl⟩
  · decide
  · decide
  · exact Numeral.digitChar_ne (Nat.le_refl 16) hd (by decide)

theorem IsAddressChar.toNat_lt {c : Char} (h : IsAddressChar c) : c.toNat < 0x80 := by
  rcases h with rfl | rfl | ⟨d, hd, rfl⟩
  · decide
  · decide
  · exact Numeral.toNat_digitChar_lt hd

namespace IpAddress

theorem isAddressChar_of_mem_toDigits {b : Nat} (h1 : 1 < b) (h16 : b ≤ 16) {n : Nat} {c : Char}
    (hc : c ∈ Nat.toDigits b n) : IsAddressChar c := by
  obtain ⟨ds, hds⟩ := exists_digits h1 n
  rw [hds.chars] at hc
  obtain ⟨d, hd, rfl⟩ := List.mem_map.mp hc
  exact .inr (.inr ⟨d, by have := hds.lt d hd; omega, rfl⟩)

theorem isAddressChar_of_mem_ipv4Chars {x : Nat} {c : Char} (hc : c ∈ ipv4Chars x) :
    IsAddressChar c := by
  have hdigits : ∀ n, c ∈ decimal n → IsAddressChar c := fun n =>
    isAddressChar_of_mem_toDigits (by decide) (by decide)
  simp only [ipv4Chars, List.mem_append, List.mem_cons] at hc
  rcases hc with hc | rfl | hc | rfl | hc | rfl | hc
  · exact hdigits _ hc
  · exact .inl rfl
  · exact hdigits _ hc
  · exact .inl rfl
  · exact hdigits _ hc
  · exact .inl rfl
  · exact hdigits _ hc

theorem isAddressChar_of_mem_groupChars {gs : List Nat} {c : Char} (hc : c ∈ groupChars gs) :
    IsAddressChar c := by
  have hdigits : ∀ n, c ∈ hexadecimal n → IsAddressChar c := fun n =>
    isAddressChar_of_mem_toDigits (by decide) (by decide)
  induction gs with
  | nil => cases hc
  | cons g gs ih =>
    cases gs with
    | nil => exact hdigits g hc
    | cons g' gs =>
      rcases List.mem_append.mp hc with hc | hc
      · exact hdigits g hc
      · rcases List.mem_cons.mp hc with rfl | hc
        · exact .inr (.inl rfl)
        · exact ih hc

theorem isAddressChar_of_mem_ipv6Chars {gs : List Nat} {c : Char} (hc : c ∈ ipv6Chars gs) :
    IsAddressChar c := by
  unfold ipv6Chars at hc
  split at hc
  split at hc
  · rcases List.mem_append.mp hc with hc | hc
    · exact isAddressChar_of_mem_groupChars hc
    · rcases List.mem_cons.mp hc with rfl | hc
      · exact .inr (.inl rfl)
      · rcases List.mem_cons.mp hc with rfl | hc
        · exact .inr (.inl rfl)
        · exact isAddressChar_of_mem_groupChars hc
  · exact isAddressChar_of_mem_groupChars hc

theorem isAddressChar_of_mem_toChars {a : IpAddress} {c : Char} (hc : c ∈ a.toChars) :
    IsAddressChar c := by
  cases a with
  | v4 x => exact isAddressChar_of_mem_ipv4Chars hc
  | v6 x =>
    simp only [toChars] at hc
    split at hc
    · rcases List.mem_append.mp hc with hc | hc
      · have hstart : ∀ c ∈ "::ffff:".toList, c = ':' ∨ c = Nat.digitChar 15 := by simp
        rcases hstart c hc with rfl | rfl
        · exact .inr (.inl rfl)
        · exact .inr (.inr ⟨15, by decide, rfl⟩)
      · exact isAddressChar_of_mem_ipv4Chars hc
    · exact isAddressChar_of_mem_ipv6Chars hc

theorem slash_not_mem_toChars (a : IpAddress) : '/' ∉ a.toChars :=
  fun h => (isAddressChar_of_mem_toChars h).ne_slash rfl

/-- An address is written in ASCII, also with a length behind it. -/
theorem toNat_lt_of_mem_slashChars {a : IpAddress} {n : Nat} {c : Char}
    (hc : c ∈ slashChars a n) : c.toNat < 0x80 := by
  rcases List.mem_append.mp hc with hc | hc
  · exact (isAddressChar_of_mem_toChars hc).toNat_lt
  · rcases List.mem_cons.mp hc with rfl | hc
    · decide
    · exact Numeral.toNat_lt_of_mem_toDigits (by decide) (by decide) hc

theorem toNat_lt_of_mem_toString (a : IpAddress) : ∀ c ∈ (toString a).toList, c.toNat < 0x80 := by
  intro c hc
  have hc : c ∈ (String.ofList a.toChars).toList := hc
  rw [String.toList_ofList] at hc
  exact (isAddressChar_of_mem_toChars hc).toNat_lt

end IpAddress

/-- An address and its length are read back. -/
theorem readSlash_slashChars (a : IpAddress) {length : Nat} (hlength : length ≤ 255) :
    readSlash (String.ofList (slashChars a length)) = .ok (a, length) := by
  have hsplit := splitAtChar_append a.slash_not_mem_toChars (decimal length)
  have hnat := Numeral.readNat_decimal hlength
  rw [readSlash, String.toList_ofList, slashChars, hsplit]
  simp only [IpAddress.ofChars?_toChars, hnat]

/-- The length of a text is a byte. -/
theorem le_of_readSlash {s : String} {parts : IpAddress × Nat} (h : readSlash s = .ok parts) :
    parts.2 ≤ 255 := by
  unfold readSlash at h
  split at h
  · cases h
  · split at h
    · cases h
    · split at h
      · cases h
      · next length hlength =>
        obtain rfl := Except.ok.inj h
        exact Numeral.le_of_readNat hlength

/-! ### Link addresses and prefixes -/

theorem IpAddress.width_le (a : IpAddress) : a.width ≤ 128 := by
  cases a <;> simp [IpAddress.width]

namespace LinkAddress

theorem make_self (a : LinkAddress) : make a.address a.length = .ok a := by
  simp [make, a.length_le]

theorem toNat_lt_of_mem_toString (a : LinkAddress) : ∀ c ∈ (toString a).toList, c.toNat < 0x80 := by
  intro c hc
  have hc : c ∈ (String.ofList (slashChars a.address a.length)).toList := hc
  rw [String.toList_ofList] at hc
  exact IpAddress.toNat_lt_of_mem_slashChars hc

/-- Every link address is read back from its text. -/
theorem ofString_toString (a : LinkAddress) : ofString (toString a) = .ok a := by
  have hlength : a.length ≤ 255 := by
    have := a.length_le
    have := a.address.width_le
    omega
  have hread := readSlash_slashChars a.address hlength
  have htext : toString a = String.ofList (slashChars a.address a.length) := rfl
  rw [ofString, htext, hread]
  exact a.make_self

end LinkAddress

namespace IpPrefix

theorem make_self (p : IpPrefix) : make p.address p.length = .ok p := by
  simp [make, p.length_le, p.masked]

theorem toNat_lt_of_mem_toString (p : IpPrefix) : ∀ c ∈ (toString p).toList, c.toNat < 0x80 := by
  intro c hc
  have hc : c ∈ (String.ofList (slashChars p.address p.length)).toList := hc
  rw [String.toList_ofList] at hc
  exact IpAddress.toNat_lt_of_mem_slashChars hc

/-- Every prefix is read back from its text. -/
theorem ofString_toString (p : IpPrefix) : ofString (toString p) = .ok p := by
  have hlength : p.length ≤ 255 := by
    have := p.length_le
    have := p.address.width_le
    omega
  have hread := readSlash_slashChars p.address hlength
  have htext : toString p = String.ofList (slashChars p.address p.length) := rfl
  rw [ofString, htext, hread]
  exact p.make_self

end IpPrefix

end Provisioning
