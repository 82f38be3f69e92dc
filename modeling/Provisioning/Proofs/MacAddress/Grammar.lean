import Mathlib.Data.List.Basic
import Provisioning.Codec
import Provisioning.Proofs.MacAddress
import Provisioning.Proofs.Numeral.Hexadecimal

/-! # The texts of MAC addresses

    A text is cut at its colons into groups, and each group is read as a numeral of two characters.
    Two hexadecimal digits are such a numeral, but so is a plus sign in front of one digit. So the
    texts that are read are six groups with single colons between them, each of them two digits or
    a sign and one digit, and the texts without a sign are the ones that are written like an
    address.

    What is read is written in lower case, with a zero in the place of each sign.

    Main statement: `accepts_groups`.
-/

namespace Provisioning.MacAddress

open Numeral (IsHexDigit IsNatural IsMagnitude hexDigit? hexDigit hexPair digit?_sixteen
  isSome_hexDigit?_iff)

/-! ### Groups -/

/-- Two hexadecimal digits. -/
def IsPair (group : List Char) : Prop :=
  ∃ x y, group = [x, y] ∧ IsHexDigit x ∧ IsHexDigit y

/-- A plus sign and one hexadecimal digit. -/
def IsSignedDigit (group : List Char) : Prop :=
  ∃ y, group = ['+', y] ∧ IsHexDigit y

/-- Six groups of the given kind with single colons between them. -/
def Grouped (Group : List Char → Prop) (s : String) : Prop :=
  ∃ groups : List (List Char), groups.length = 6 ∧ (∀ group ∈ groups, Group group) ∧
    s.toList = [':'].intercalate groups

/-- Besides the sign there are only digits in a group. -/
theorem eq_sign_or_isHexDigit {g : List Char} (h : IsPair g ∨ IsSignedDigit g) {c : Char}
    (hc : c ∈ g) : (c = '+' ∧ IsSignedDigit g) ∨ IsHexDigit c := by
  rcases h with ⟨x, y, rfl, hx, hy⟩ | ⟨y, rfl, hy⟩
  · rcases List.mem_cons.mp hc with rfl | hc
    · exact .inr hx
    · exact .inr (List.mem_singleton.mp hc ▸ hy)
  · rcases List.mem_cons.mp hc with rfl | hc
    · exact .inl ⟨rfl, y, rfl, hy⟩
    · exact .inr (List.mem_singleton.mp hc ▸ hy)

/-- A group stands for a byte. -/
inductive Spells : List Char → UInt8 → Prop
  | pair {x y : Char} {high low : Nat} {b : UInt8} : hexDigit? x = some high →
      hexDigit? y = some low → b.toNat = high * 16 + low → Spells [x, y] b
  | signed {y : Char} {b : UInt8} : hexDigit? y = some b.toNat → Spells ['+', y] b

/-- Numerals of two characters are two digits, or a sign and a digit. -/
theorem isNatural_two_iff {x y : Char} {b : UInt8} :
    IsNatural 16 [x, y] b.toNat ↔ Spells [x, y] b := by
  constructor
  · intro h
    cases h with
    | plain h =>
      obtain ⟨high, low, hhigh, hlow, hvalue⟩ := Numeral.isMagnitude_two_iff.mp h
      rw [digit?_sixteen] at hhigh hlow
      exact .pair hhigh hlow hvalue
    | plus h =>
      rw [Numeral.isMagnitude_one_iff, digit?_sixteen] at h
      exact .signed h
  · intro h
    cases h with
    | pair hhigh hlow hvalue =>
      rw [← digit?_sixteen] at hhigh hlow
      exact .plain (Numeral.isMagnitude_two_iff.mpr ⟨_, _, hhigh, hlow, hvalue⟩)
    | signed h =>
      rw [← digit?_sixteen, ← Numeral.isMagnitude_one_iff] at h
      exact .plus h

/-- A group is read as the byte that it stands for. -/
theorem pair?_eq_some_iff {g : List Char} {b : UInt8} : pair? g = some b ↔ Spells g b := by
  have hb : b.toNat ≤ 255 := Nat.le_of_lt_succ b.toNat_lt
  unfold pair?
  constructor
  · intro h
    by_cases hlength : g.length = 2
    · obtain ⟨x, y, rfl⟩ := List.length_eq_two.mp hlength
      rw [if_pos hlength] at h
      cases hread : Numeral.readNat 16 255 [x, y] with
      | error e =>
        rw [hread] at h
        cases h
      | ok n =>
        rw [hread] at h
        obtain ⟨hn, hle⟩ := (Numeral.readNat_eq_ok_iff (by decide)).mp hread
        obtain rfl := Option.some.inj h
        have hsame : (UInt8.ofNat n).toNat = n := UInt8.toNat_ofNat_of_lt' (Nat.lt_succ_of_le hle)
        exact isNatural_two_iff.mp (hsame.symm ▸ hn)
    · rw [if_neg hlength] at h
      cases h
  · intro h
    have hlength : g.length = 2 := by cases h <;> rfl
    obtain ⟨x, y, rfl⟩ := List.length_eq_two.mp hlength
    have hread := (Numeral.readNat_eq_ok_iff (by decide)).mpr ⟨isNatural_two_iff.mpr h, hb⟩
    rw [if_pos hlength, hread]
    exact congrArg some b.ofNat_toNat

/-- The groups that are read are the pairs and the signed digits. -/
theorem exists_pair?_iff {g : List Char} :
    (∃ b, pair? g = some b) ↔ IsPair g ∨ IsSignedDigit g := by
  have hdigit : ∀ {c : Char} {d : Nat}, hexDigit? c = some d → IsHexDigit c := by
    intro c d h
    exact isSome_hexDigit?_iff.mp (by rw [h, Option.isSome_some])
  have hvalue : ∀ {c : Char}, IsHexDigit c → ∃ d, d < 16 ∧ hexDigit? c = some d := by
    intro c h
    obtain ⟨d, hd⟩ := Option.isSome_iff_exists.mp (isSome_hexDigit?_iff.mpr h)
    exact ⟨d, (Numeral.hexDigit_of_hexDigit? hd).1, hd⟩
  constructor
  · rintro ⟨b, hb⟩
    rw [pair?_eq_some_iff] at hb
    cases hb with
    | pair hhigh hlow _ => exact .inl ⟨_, _, rfl, hdigit hhigh, hdigit hlow⟩
    | signed h => exact .inr ⟨_, rfl, hdigit h⟩
  · intro h
    rcases h with ⟨x, y, rfl, hx, hy⟩ | ⟨y, rfl, hy⟩
    · obtain ⟨high, hhigh, hx⟩ := hvalue hx
      obtain ⟨low, hlow, hy⟩ := hvalue hy
      have hb : (UInt8.ofNat (high * 16 + low)).toNat = high * 16 + low :=
        UInt8.toNat_ofNat_of_lt' (by show _ < 256; omega)
      exact ⟨_, pair?_eq_some_iff.mpr (.pair hx hy hb)⟩
    · obtain ⟨d, hd, hy⟩ := hvalue hy
      have hb : (UInt8.ofNat d).toNat = d := UInt8.toNat_ofNat_of_lt' (by show _ < 256; omega)
      exact ⟨_, pair?_eq_some_iff.mpr (.signed (hb.symm ▸ hy))⟩

/-- What is written for a character of a text that is read. -/
def shown (c : Char) : Char :=
  if c = '+' then '0' else c.toLower

/-- What is read of a group is written with its digits in lower case. -/
theorem hexPair_of_pair? {g : List Char} {b : UInt8} (h : pair? g = some b) :
    hexPair b = g.map shown := by
  have hshown : ∀ {c : Char} {d : Nat}, hexDigit? c = some d → hexDigit d = shown c := by
    intro c d hd
    have hne : c ≠ '+' := by
      rintro rfl
      cases hd
    unfold shown
    rw [if_neg hne]
    exact (Numeral.hexDigit_of_hexDigit? hd).2
  rw [pair?_eq_some_iff] at h
  unfold hexPair
  cases h with
  | @pair x y high low _ hhigh hlow hb =>
    have hlt := (Numeral.hexDigit_of_hexDigit? hlow).1
    have hquot : b.toNat / 16 = high := by omega
    have hrem : b.toNat % 16 = low := by omega
    rw [hquot, hrem, hshown hhigh, hshown hlow]
    rfl
  | @signed y _ hy =>
    have hlt := (Numeral.hexDigit_of_hexDigit? hy).1
    have hquot : b.toNat / 16 = 0 := by omega
    have hrem : b.toNat % 16 = b.toNat := by omega
    rw [hquot, hrem, hshown hy]
    rfl

/-! ### Whole texts -/

theorem map_intercalate (f : Char → Char) (sep : Char) (parts : List (List Char)) :
    ([sep].intercalate parts).map f = [f sep].intercalate (parts.map (List.map f)) := by
  induction parts with
  | nil => rfl
  | cons part parts ih =>
    cases parts with
    | nil => simp
    | cons part' parts =>
      rw [List.intercalate_cons_cons, List.map_append, List.map_append, ih]
      simp [List.intercalate_cons_cons]

/-- The values of a list exist if each of them does. -/
theorem exists_map_eq {α β : Type} {g : α → Option β} {xs : List α}
    (h : ∀ x ∈ xs, ∃ y, g x = some y) : ∃ ys : List β, xs.map g = ys.map some := by
  induction xs with
  | nil => exact ⟨[], rfl⟩
  | cons x xs ih =>
    obtain ⟨y, hy⟩ := h x List.mem_cons_self
    obtain ⟨ys, hys⟩ := ih fun x' hx' => h x' (List.mem_cons_of_mem x hx')
    exact ⟨y :: ys, by rw [List.map_cons, List.map_cons, hy, hys]⟩

theorem colon_not_mem_of_group {g : List Char} (h : IsPair g ∨ IsSignedDigit g) : ':' ∉ g := by
  intro hc
  rcases eq_sign_or_isHexDigit h hc with ⟨hsign, -⟩ | hdigit
  · cases hsign
  · exact absurd hdigit (by decide)

/-- An address is read exactly if its groups are pairs or signed digits. -/
theorem exists_ofString_iff (s : String) :
    (∃ m, ofString s = .ok m) ↔ Grouped (fun g => IsPair g ∨ IsSignedDigit g) s := by
  constructor
  · rintro ⟨m, hm⟩
    rw [ofString_eq_ok_iff] at hm
    refine ⟨splitOnChar ':' s.toList, ?_, ?_, ?_⟩
    · have hlength := congrArg List.length hm
      rwa [List.length_map, List.length_map, m.length_eq] at hlength
    · intro g hg
      have hmem := List.mem_map_of_mem hg (f := pair?)
      rw [hm] at hmem
      obtain ⟨b, -, hb⟩ := List.mem_map.mp hmem
      exact exists_pair?_iff.mp ⟨b, hb.symm⟩
    · rw [splitOnChar_eq, List.intercalate_splitOn]
  · rintro ⟨groups, hlength, hgroups, hs⟩
    -- No group holds a colon, so the text is cut into these groups again.
    have hsplit : splitOnChar ':' s.toList = groups := by
      rw [hs, splitOnChar_eq]
      apply List.splitOn_intercalate
      · intro g hg
        exact colon_not_mem_of_group (hgroups g hg)
      · rintro rfl
        cases hlength
    obtain ⟨bytes, hbytes⟩ := exists_map_eq fun g hg => exists_pair?_iff.mpr (hgroups g hg)
    have hsix : bytes.length = 6 := by
      have hsame := congrArg List.length hbytes
      rwa [List.length_map, List.length_map, hlength, eq_comm] at hsame
    exact ⟨⟨bytes, hsix⟩, ofString_eq_ok_iff.mpr (hsplit ▸ hbytes)⟩

theorem map_hexPair_eq {groups : List (List Char)} {bytes : List UInt8}
    (h : groups.map pair? = bytes.map some) :
    bytes.map hexPair = groups.map (List.map shown) := by
  induction groups generalizing bytes with
  | nil =>
    obtain rfl : bytes = [] := List.map_eq_nil_iff.mp h.symm
    rfl
  | cons g groups ih =>
    cases bytes with
    | nil => cases h
    | cons b bytes =>
      obtain ⟨hb, hbytes⟩ := List.cons.inj h
      rw [List.map_cons, List.map_cons, hexPair_of_pair? hb, ih hbytes]

/-- What is read is written in lower case, with a zero for each sign. -/
theorem toList_toString_of_ofString {s : String} {m : MacAddress} (h : ofString s = .ok m) :
    (toString m).toList = s.toList.map shown := by
  calc (toString m).toList
      = [':'].intercalate (m.bytes.map hexPair) := by rw [toList_toString, byteChars_eq]
    _ = [':'].intercalate ((splitOnChar ':' s.toList).map (List.map shown)) := by
        rw [map_hexPair_eq (ofString_eq_ok_iff.mp h)]
    _ = ([':'].intercalate (splitOnChar ':' s.toList)).map shown :=
        (map_intercalate shown ':' _).symm
    _ = s.toList.map shown := by rw [splitOnChar_eq, List.intercalate_splitOn]

/-- What is not read is refused as an argument, with the text in the message. -/
theorem ofString_eq_error {s : String} (h : ¬ ∃ m, ofString s = .ok m) :
    ofString s = .error (.malformed s) := by
  unfold ofString at h ⊢
  split
  · rfl
  · next bytes hbytes =>
    by_cases hlength : bytes.length = 6
    · exact absurd ⟨_, by rw [hbytes]; exact dif_pos hlength⟩ h
    · rw [dif_neg hlength]

/-! ### Signs -/

/-- The texts that are written like an address are those that are read and hold no sign. -/
theorem grouped_isPair_iff (s : String) :
    Grouped IsPair s ↔ (∃ m, ofString s = .ok m) ∧ '+' ∉ s.toList := by
  rw [exists_ofString_iff]
  constructor
  · rintro ⟨groups, hlength, hpairs, hs⟩
    refine ⟨⟨groups, hlength, fun g hg => .inl (hpairs g hg), hs⟩, ?_⟩
    intro hsign
    rw [hs] at hsign
    -- A sign would stand between two groups or in one of them, among its digits.
    rcases mem_intercalate hsign with hcolon | ⟨g, hg, hmem⟩
    · cases hcolon
    · obtain ⟨x, y, rfl, hx, hy⟩ := hpairs g hg
      rcases List.mem_cons.mp hmem with rfl | hmem
      · exact absurd hx (by decide)
      · obtain rfl := List.mem_singleton.mp hmem
        exact absurd hy (by decide)
  · rintro ⟨⟨groups, hlength, hgroups, hs⟩, hsign⟩
    refine ⟨groups, hlength, ?_, hs⟩
    intro g hg
    rcases hgroups g hg with hpair | ⟨y, rfl, -⟩
    · exact hpair
    · -- The sign of the group would be one of the text.
      rw [hs] at hsign
      exact absurd (mem_intercalate_of_mem hg List.mem_cons_self) hsign

/-- Without a sign what is read is written as the text in lower case. -/
theorem toString_of_ofString {s : String} {m : MacAddress} (h : ofString s = .ok m)
    (hsign : '+' ∉ s.toList) : toString m = s.toLower := by
  apply String.toList_inj.mp
  rw [toList_toString_of_ofString h, Numeral.toList_toLower]
  apply List.map_congr_left
  intro c hc
  apply if_neg
  rintro rfl
  exact hsign hc

/-- Which texts are read as a MAC address, and how what is read is written. Six groups are read, with
single colons between them, each of them two hexadecimal digits of either case or a plus sign and one
digit; so the texts that are written like an address are those without a sign among them. What is
read is written in lower case, and a sign as a zero. Every other text is refused as an argument. -/
theorem accepts_groups (s : String) :
    ((∃ m, ofString s = .ok m) ↔ Grouped (fun g => IsPair g ∨ IsSignedDigit g) s) ∧
    (Grouped IsPair s ↔ (∃ m, ofString s = .ok m) ∧ '+' ∉ s.toList) ∧
    (∀ m, ofString s = .ok m → (toString m).toList = s.toList.map shown ∧
      ('+' ∉ s.toList → toString m = s.toLower)) ∧
    (¬ Grouped (fun g => IsPair g ∨ IsSignedDigit g) s →
      ∃ e : MacError, ofString s = .error e ∧ e.failure.kind = .invalidArgument) := by
  refine ⟨exists_ofString_iff s, grouped_isPair_iff s, ?_, ?_⟩
  · intro m hm
    exact ⟨toList_toString_of_ofString hm, toString_of_ofString hm⟩
  · intro h
    rw [← exists_ofString_iff] at h
    exact ⟨.malformed s, ofString_eq_error h, rfl⟩

/-- Letters of both cases, and one that is no digit of either. -/
theorem accepts_groups_letters :
    (∃ m, ofString "12:34:56:78:9a:BC" = .ok m ∧ '+' ∉ "12:34:56:78:9a:BC".toList ∧
      toString m = "12:34:56:78:9a:BC".toLower) ∧
    ¬ Grouped (fun g => IsPair g ∨ IsSignedDigit g) "aa:aa:aa:aa:aa:aé" ∧
    ∃ e : MacError, ofString "aa:aa:aa:aa:aa:aé" = .error e ∧ e.failure.kind = .invalidArgument := by
  have hread : ofString "12:34:56:78:9a:BC" =
      .ok ⟨[0x12, 0x34, 0x56, 0x78, 0x9a, 0xbc], rfl⟩ := rfl
  have hsign : '+' ∉ "12:34:56:78:9a:BC".toList := by decide
  have hbad : ofString "aa:aa:aa:aa:aa:aé" = .error (.malformed "aa:aa:aa:aa:aa:aé") := rfl
  have hnot : ¬ Grouped (fun g => IsPair g ∨ IsSignedDigit g) "aa:aa:aa:aa:aa:aé" := by
    intro hgrouped
    obtain ⟨m, hm⟩ := (accepts_groups "aa:aa:aa:aa:aa:aé").1.mpr hgrouped
    rw [hbad] at hm
    cases hm
  have hshown := ((accepts_groups "12:34:56:78:9a:BC").2.2.1 _ hread).2 hsign
  exact ⟨⟨_, hread, hsign, hshown⟩, hnot, (accepts_groups "aa:aa:aa:aa:aa:aé").2.2.2 hnot⟩

/-- A text that is not written like an address is read, its sign as a zero. -/
theorem accepts_sign :
    (∃ m, ofString "+1:00:00:00:00:00" = .ok m ∧ toString m = "01:00:00:00:00:00") ∧
      ¬ Grouped IsPair "+1:00:00:00:00:00" := by
  refine ⟨⟨⟨[1, 0, 0, 0, 0, 0], rfl⟩, rfl, rfl⟩, ?_⟩
  intro hgrouped
  have hsign := ((grouped_isPair_iff _).mp hgrouped).2
  exact hsign (by decide)

end Provisioning.MacAddress
