import Provisioning.Proofs.Address.Containment
import Provisioning.Proofs.Address.Slash
import Provisioning.Proofs.Numeral.Natural

/-! # The texts of addresses with a length

    A text has its parts before and behind its first slash. It is read if the first part is an
    address in any of its spellings and the second one a number in the range of the address, and
    what is read is made of the two: a link address as they are, a prefix without the host bits.

    Any other text has one fault. The faults are looked for in a fixed order, so each of them
    presupposes that the text is free of those before it. Link addresses and prefixes are made in
    their own ways, but the only thing that either refuses is a length out of range, so both have
    the same texts and the same faults.

    Main statement: `read_alike`.
-/

namespace Provisioning

/-! ### The first slash -/

theorem splitAtChar_eq_none_iff {c : Char} {cs : List Char} :
    splitAtChar c cs = none ↔ c ∉ cs := by
  induction cs with
  | nil => simp [splitAtChar]
  | cons d cs ih =>
    by_cases hd : d = c
    · simp [splitAtChar, hd]
    · simp [splitAtChar, hd, ih, Ne.symm hd]

/-- The first of the separators is the one without any in front of it. -/
theorem splitAtChar_eq_some_iff {c : Char} {cs front back : List Char} :
    splitAtChar c cs = some (front, back) ↔ cs = front ++ c :: back ∧ c ∉ front := by
  constructor
  · intro h
    induction cs generalizing front with
    | nil => cases h
    | cons d cs ih =>
      rw [splitAtChar] at h
      split at h
      · next hd =>
        obtain ⟨rfl, rfl⟩ := Prod.mk.inj (Option.some.inj h)
        exact ⟨by simp [hd], List.not_mem_nil⟩
      · next hd =>
        obtain ⟨⟨front', back'⟩, hparts, heq⟩ := Option.map_eq_some_iff.mp h
        obtain ⟨rfl, rfl⟩ := Prod.mk.inj heq
        obtain ⟨rfl, hfirst⟩ := ih hparts
        refine ⟨rfl, ?_⟩
        intro hmem
        rcases List.mem_cons.mp hmem with hc | hmem
        · exact hd hc.symm
        · exact hfirst hmem
  · rintro ⟨rfl, hfirst⟩
    exact splitAtChar_append hfirst back

/-- The first slash of `s` has `ip` in front of it and `digits` behind it. -/
structure SlashParts (s ip digits : String) : Prop where
  text : s = ip ++ "/" ++ digits
  first : '/' ∉ ip.toList

theorem slashParts_iff {s ip digits : String} :
    SlashParts s ip digits ↔ splitAtChar '/' s.toList = some (ip.toList, digits.toList) := by
  rw [splitAtChar_eq_some_iff]
  have htext : (ip ++ "/" ++ digits).toList = ip.toList ++ '/' :: digits.toList := by
    simp [String.toList_append]
  constructor
  · rintro ⟨rfl, hfirst⟩
    exact ⟨htext, hfirst⟩
  · rintro ⟨hs, hfirst⟩
    exact ⟨String.toList_inj.mp (hs.trans htext.symm), hfirst⟩

/-! ### Texts and faults -/

/-- `s` is a spelling of the address `a`, a slash and the number `n`. -/
inductive Written (s : String) (a : IpAddress) (n : Nat) : Prop
  | mk {ip digits : String} : SlashParts s ip digits → IpAddress.ofString? ip = some a →
      Numeral.IsNatural 10 digits.toList n → Written s a n

/-- What is wrong with a text that is not read as an address with a length. -/
inductive AddressFault (s : String) : AddressError → Prop
  | noSeparator : '/' ∉ s.toList → AddressFault s (.noSeparator s)
  | badAddress {ip digits : String} : SlashParts s ip digits → IpAddress.ofString? ip = none →
      AddressFault s .badAddress
  /-- A number that no byte holds is a fault of the number. -/
  | badLength {ip digits : String} {a : IpAddress} {cause : NumeralError} :
      SlashParts s ip digits → IpAddress.ofString? ip = some a →
      Numeral.IsFault 10 255 digits.toList cause → AddressFault s (.badLength digits s cause)
  | lengthOutOfRange {a : IpAddress} {n : Nat} : Written s a n → n ≤ 255 → a.width < n →
      AddressFault s (.lengthOutOfRange n a)

theorem AddressFault.kind_eq {s : String} {e : AddressError} (_ : AddressFault s e) :
    e.failure.kind = .invalidArgument := rfl

variable {s : String} {a : IpAddress} {n : Nat}

theorem readSlash_of_written (h : Written s a n) (hn : n ≤ 255) : readSlash s = .ok (a, n) := by
  obtain ⟨hparts, haddress, hnatural⟩ := h
  have hread := (Numeral.readNat_eq_ok_iff (by decide)).mpr ⟨hnatural, hn⟩
  have haddress : IpAddress.ofChars? _ = some a := haddress
  simp only [readSlash, slashParts_iff.mp hparts, haddress, hread]

/-- A text is that of an address with a length in its range, or it has a fault. -/
theorem exists_written_or_fault (s : String) :
    (∃ a n, Written s a n ∧ n ≤ a.width) ∨ ∃ e, AddressFault s e := by
  cases hsplit : splitAtChar '/' s.toList with
  | none => exact .inr ⟨_, .noSeparator (splitAtChar_eq_none_iff.mp hsplit)⟩
  | some parts =>
    obtain ⟨front, back⟩ := parts
    have hparts : SlashParts s (String.ofList front) (String.ofList back) := by
      rw [slashParts_iff, String.toList_ofList, String.toList_ofList, hsplit]
    cases haddress : IpAddress.ofString? (String.ofList front) with
    | none => exact .inr ⟨_, .badAddress hparts haddress⟩
    | some a =>
      cases hread : Numeral.readNat 10 255 (String.ofList back).toList with
      | error cause =>
        have hfault := (Numeral.readNat_eq_error_iff (by decide)).mp hread
        exact .inr ⟨_, .badLength hparts haddress hfault⟩
      | ok n =>
        obtain ⟨hnatural, hbyte⟩ := (Numeral.readNat_eq_ok_iff (by decide)).mp hread
        have hwritten : Written s a n := .mk hparts haddress hnatural
        by_cases hn : n ≤ a.width
        · exact .inl ⟨a, n, hwritten, hn⟩
        · exact .inr ⟨_, .lengthOutOfRange hwritten hbyte (Nat.not_le.mp hn)⟩

theorem SlashParts.unique {ip digits ip' digits' : String} (h : SlashParts s ip digits)
    (h' : SlashParts s ip' digits') : ip = ip' ∧ digits = digits' := by
  have hsame := (slashParts_iff.mp h).symm.trans (slashParts_iff.mp h')
  obtain ⟨hip, hdigits⟩ := Prod.mk.inj (Option.some.inj hsame)
  exact ⟨String.toList_inj.mp hip, String.toList_inj.mp hdigits⟩

/-- A text is that of one address and one number at most. -/
theorem Written.unique {b : IpAddress} {m : Nat} (h : Written s a n) (h' : Written s b m) :
    a = b ∧ n = m := by
  obtain ⟨hparts, haddress, hnatural⟩ := h
  obtain ⟨hparts', haddress', hnatural'⟩ := h'
  obtain ⟨rfl, rfl⟩ := hparts.unique hparts'
  exact ⟨Option.some.inj (haddress.symm.trans haddress'), hnatural.unique hnatural'⟩

/-! ### Both readers at once -/

/-- The value that `make` makes of the parts of a text. -/
def readWith {α : Type} (make : IpAddress → Nat → Except AddressError α) (s : String) :
    Except AddressError α :=
  (readSlash s).bind fun parts => make parts.1 parts.2

theorem LinkAddress.ofString_eq (s : String) : ofString s = readWith make s := rfl

theorem IpPrefix.ofString_eq (s : String) : ofString s = readWith make s := rfl

/-- A length out of the range of the address is refused, and nothing else is. -/
structure ChecksLength {α : Type} (make : IpAddress → Nat → Except AddressError α) : Prop where
  accepts : ∀ a n, n ≤ a.width → ∃ x, make a n = .ok x
  refuses : ∀ a n, a.width < n → make a n = .error (.lengthOutOfRange n a)

theorem LinkAddress.checksLength : ChecksLength make where
  accepts a n hn := ⟨⟨a, n, hn⟩, dif_pos hn⟩
  refuses _ _ hn := dif_neg (Nat.not_le.mpr hn)

theorem IpPrefix.checksLength : ChecksLength make where
  accepts _ _ hn := ⟨_, dif_pos hn⟩
  refuses _ _ hn := dif_neg (Nat.not_le.mpr hn)

section

variable {α : Type} {make : IpAddress → Nat → Except AddressError α}

theorem readWith_of_written (h : Written s a n) (hn : n ≤ 255) : readWith make s = make a n := by
  rw [readWith, readSlash_of_written h hn]
  rfl

/-- A fault is what is reported. -/
theorem readWith_of_fault (hmake : ChecksLength make) {e : AddressError} (h : AddressFault s e) :
    readWith make s = .error e := by
  -- In each case the reader comes as far as the fault, since there is none before it.
  cases h with
  | noSeparator hslash =>
    have hread : readSlash s = .error (.noSeparator s) := by
      simp only [readSlash, splitAtChar_eq_none_iff.mpr hslash]
    rw [readWith, hread]
    rfl
  | badAddress hparts haddress =>
    have haddress : IpAddress.ofChars? _ = none := haddress
    have hread : readSlash s = .error .badAddress := by
      simp only [readSlash, slashParts_iff.mp hparts, haddress]
    rw [readWith, hread]
    rfl
  | @badLength ip digits b cause hparts haddress hfault =>
    have haddress : IpAddress.ofChars? ip.toList = some b := haddress
    have hcause := (Numeral.readNat_eq_error_iff (by decide)).mpr hfault
    have hread : readSlash s = .error (.badLength digits s cause) := by
      simp only [readSlash, slashParts_iff.mp hparts, haddress, hcause, String.ofList_toList]
    rw [readWith, hread]
    rfl
  | lengthOutOfRange hwritten hbyte hout =>
    rw [readWith_of_written hwritten hbyte]
    exact hmake.refuses _ _ hout

/-- A length in the range of an address is a byte. -/
theorem le_byte_of_le_width (h : n ≤ a.width) : n ≤ 255 := by
  have hwidth := a.width_le
  omega

theorem exists_readWith_iff (hmake : ChecksLength make) :
    (∃ x, readWith make s = .ok x) ↔ ∃ a n, Written s a n ∧ n ≤ a.width := by
  constructor
  · rintro ⟨x, hx⟩
    rcases exists_written_or_fault s with hwritten | ⟨e, he⟩
    · exact hwritten
    · rw [readWith_of_fault hmake he] at hx
      cases hx
  · rintro ⟨b, m, hwritten, hm⟩
    rw [readWith_of_written hwritten (le_byte_of_le_width hm)]
    exact hmake.accepts b m hm

theorem readWith_eq_error_iff (hmake : ChecksLength make) {e : AddressError} :
    readWith make s = .error e ↔ AddressFault s e := by
  constructor
  · intro h
    rcases exists_written_or_fault s with hwritten | ⟨e', he⟩
    · obtain ⟨x, hx⟩ := (exists_readWith_iff hmake).mpr hwritten
      rw [hx] at h
      cases h
    · rw [readWith_of_fault hmake he] at h
      obtain rfl := Except.error.inj h
      exact he
  · exact readWith_of_fault hmake

end

/-! ### What is read -/

/-- A link address is read from the texts of its address and its length. -/
theorem LinkAddress.ofString_eq_ok_iff {x : LinkAddress} :
    ofString s = .ok x ↔ Written s x.address x.length := by
  rw [ofString_eq]
  constructor
  · intro h
    obtain ⟨a, n, hwritten, hn⟩ := (exists_readWith_iff checksLength).mp ⟨x, h⟩
    rw [readWith_of_written hwritten (le_byte_of_le_width hn)] at h
    obtain rfl := Except.ok.inj ((dif_pos hn).symm.trans h)
    exact hwritten
  · intro h
    rw [readWith_of_written h (le_byte_of_le_width x.length_le)]
    exact x.make_self

/-- A prefix is read from the texts of its length and of the addresses with its leading bits. -/
theorem IpPrefix.ofString_eq_ok_iff {p : IpPrefix} :
    ofString s = .ok p ↔
      ∃ a, Written s a p.length ∧ p.length ≤ a.width ∧ a.IsLeading p.length p.address := by
  rw [ofString_eq]
  constructor
  · intro h
    obtain ⟨a, n, hwritten, hn⟩ := (exists_readWith_iff checksLength).mp ⟨p, h⟩
    rw [readWith_of_written hwritten (le_byte_of_le_width hn)] at h
    obtain rfl := Except.ok.inj ((dif_pos hn).symm.trans h)
    exact ⟨a, hwritten, hn, IpAddress.isLeading_mask hn⟩
  · rintro ⟨a, hwritten, hn, hleading⟩
    rw [readWith_of_written hwritten (le_byte_of_le_width hn)]
    obtain ⟨q, hmake, hlength, hq, -⟩ := exists_make_eq hn
    rw [hmake, ext_of_address (hq.unique hleading) hlength]

/-- Link addresses and prefixes are read from the same texts: a spelling of an address, the first
slash of the text, and a number from zero to the width of the address in digits, with a plus sign in
front or without. Of one text the two have the same length, and the address of the prefix is that of
the link address without its host bits. Every other text is refused by both as an argument, for the
same fault, which is the first one in the order of the faults. -/
theorem read_alike (s : String) :
    ((∃ a, LinkAddress.ofString s = .ok a) ↔ ∃ x n, Written s x n ∧ n ≤ x.width) ∧
    ((∃ p, IpPrefix.ofString s = .ok p) ↔ ∃ x n, Written s x n ∧ n ≤ x.width) ∧
    (∀ a p, LinkAddress.ofString s = .ok a → IpPrefix.ofString s = .ok p →
      Written s a.address a.length ∧ p.length = a.length ∧
        a.address.IsLeading a.length p.address) ∧
    (∀ e, LinkAddress.ofString s = .error e ↔ AddressFault s e) ∧
    (∀ e, IpPrefix.ofString s = .error e ↔ AddressFault s e) ∧
    ∀ e, AddressFault s e → e.failure.kind = .invalidArgument := by
  refine ⟨?_, ?_, ?_, ?_, ?_, ?_⟩
  · rw [LinkAddress.ofString_eq]
    exact exists_readWith_iff LinkAddress.checksLength
  · rw [IpPrefix.ofString_eq]
    exact exists_readWith_iff IpPrefix.checksLength
  · intro a p ha hp
    have hwritten := LinkAddress.ofString_eq_ok_iff.mp ha
    obtain ⟨b, hb, -, hleading⟩ := IpPrefix.ofString_eq_ok_iff.mp hp
    -- A text is that of one address and one length.
    obtain ⟨haddress, hlength⟩ := hwritten.unique hb
    rw [haddress, hlength]
    exact ⟨hb, rfl, hleading⟩
  · intro e
    rw [LinkAddress.ofString_eq]
    exact readWith_eq_error_iff LinkAddress.checksLength
  · intro e
    rw [IpPrefix.ofString_eq]
    exact readWith_eq_error_iff IpPrefix.checksLength
  · intro e he
    exact he.kind_eq

/-- A length with a plus sign and an idle zero, and a text that has a bad address and a bad length. -/
theorem read_alike_hostBits :
    ∃ a p, LinkAddress.ofString "192.0.3.1/+023" = .ok a ∧
      IpPrefix.ofString "192.0.3.1/+023" = .ok p ∧
      p.length = a.length ∧ a.address.IsLeading a.length p.address ∧
      LinkAddress.ofString "192.0.3/300" = .error .badAddress ∧
      IpPrefix.ofString "192.0.3/300" = .error .badAddress ∧
      AddressError.badAddress.failure.kind = .invalidArgument := by
  have ha : LinkAddress.ofString "192.0.3.1/+023" = .ok ⟨.v4 0xc0000301, 23, by decide⟩ := rfl
  have hp : IpPrefix.ofString "192.0.3.1/+023" =
      .ok ⟨.v4 0xc0000200, 23, by decide, by decide⟩ := rfl
  have hbad : LinkAddress.ofString "192.0.3/300" = .error .badAddress := rfl
  obtain ⟨-, hlength, hleading⟩ := (read_alike "192.0.3.1/+023").2.2.1 _ _ ha hp
  obtain ⟨-, -, -, hlink, hroute, hkind⟩ := read_alike "192.0.3/300"
  have hfault := (hlink .badAddress).mp hbad
  exact ⟨_, _, ha, hp, hlength, hleading, hbad, (hroute _).mpr hfault, hkind _ hfault⟩

end Provisioning
