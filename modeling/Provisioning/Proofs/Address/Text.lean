import Provisioning.Address.Text
import Provisioning.Proofs.Numeral

/-! # Addresses are read back from their text

    An IPv4 address is four octets, whose reader stops at the first character that is no decimal
    digit. For an IPv6 address the writer picks a run of zero groups and leaves it out; the
    reader finds the groups before it and those behind it and puts as many zeros between them as
    are missing. So it is enough that the run consists of zeros and is long enough, wherever it
    is: which of several runs is picked does not matter.

    Main statement: `ofChars?_toChars`.
-/

namespace Provisioning.IpAddress

open Numeral (joinDigits Digits exists_digits exists_toDigits_eq_cons decimal hexadecimal)

/-! ### Runs of digits -/

/-- A text that does not go on with a digit of base `b`. -/
def EndsDigits (b : Nat) (rest : List Char) : Prop :=
  ∀ c ∈ rest.head?, Numeral.digit? b c = none

theorem takeDigits_digitChars {b : Nat} (hr : b ≤ 16) {ds : List Nat}
    (hds : ∀ d ∈ ds, d < b) {rest : List Char} (hrest : EndsDigits b rest)
    (value count : Nat) :
    takeDigits b (ds.map Nat.digitChar ++ rest) value count
      = (joinDigits b ds value, count + ds.length, rest) := by
  induction ds generalizing value count with
  | nil =>
    cases rest with
    | nil => rfl
    | cons c rest =>
      have hc : Numeral.digit? b c = none := hrest c (by simp)
      simp [takeDigits, hc]
  | cons d ds ih =>
    have hd := Numeral.digit?_digitChar hr (hds d (by simp))
    have hmore := ih (fun e he => hds e (by simp [he])) (value * b + d) (count + 1)
    simp only [List.map_cons, List.cons_append, takeDigits, hd, hmore]
    simp
    omega

/-- A number is taken as a whole, with the count of its digits. -/
theorem takeDigits_toDigits {b : Nat} (h1 : 1 < b) (hr : b ≤ 16) (n : Nat)
    {rest : List Char} (hrest : EndsDigits b rest) :
    takeDigits b (Nat.toDigits b n ++ rest) 0 0
      = (n, (Nat.toDigits b n).length, rest) := by
  obtain ⟨ds, hds⟩ := exists_digits h1 n
  rw [hds.chars, takeDigits_digitChars hr hds.lt hrest, hds.value]
  simp

/-! ### Octets and IPv4 -/

theorem readOctet_decimal {n : Nat} (hn : n ≤ 255) {rest : List Char}
    (hrest : EndsDigits 10 rest) : readOctet (decimal n ++ rest) = some (n, rest) := by
  have htake := takeDigits_toDigits (b := 10) (by omega) (by omega) n hrest
  have hpos : 0 < (Nat.toDigits 10 n).length := Nat.length_toDigits_pos
  have hthree : (Nat.toDigits 10 n).length ≤ 3 :=
    (Nat.length_toDigits_le_iff (by omega) (by omega)).mpr (by omega)
  -- Octal digits are not taken: a zero in front is allowed only if it stands alone.
  have hzero : (Nat.toDigits 10 n ++ rest).head? = some '0' → (Nat.toDigits 10 n).length ≤ 1 := by
    obtain ⟨ds, hds⟩ := exists_digits (b := 10) (by omega) n
    obtain ⟨d, more, hcons, honly⟩ := hds.first
    rw [hds.chars, hcons]
    intro hhead
    have hchar : Nat.digitChar d = '0' := by simpa using hhead
    have hd : d = 0 := by
      have hread := Numeral.digit?_digitChar (b := 10) (by omega) (hds.lt d (by simp [hcons]))
      have hread0 : Numeral.digit? 10 '0' = some 0 := by decide
      rw [hchar, hread0] at hread
      exact (Option.some.inj hread).symm
    simp [honly hd]
  have hnone : ¬ ((Nat.toDigits 10 n).length = 0 ∨ 3 < (Nat.toDigits 10 n).length
      ∨ ((Nat.toDigits 10 n ++ rest).head? = some '0' ∧ 1 < (Nat.toDigits 10 n).length)
      ∨ 255 < n) := by
    rintro (h | h | ⟨hhead, h⟩ | h)
    · omega
    · omega
    · have := hzero hhead
      omega
    · omega
  rw [readOctet, decimal, htake]
  simp only [if_neg hnone]

theorem endsDigits_dot (cs : List Char) : EndsDigits 10 ('.' :: cs) := by
  intro c hc
  have : '.' = c := by simpa using hc
  rw [← this]
  decide

/-- An IPv4 address in front of what does not go on with a digit is read back. -/
theorem readIpv4_ipv4Chars {x : Nat} (hx : x < 4294967296) (rest : List Char)
    (hrest : EndsDigits 10 rest) :
    readIpv4 (ipv4Chars x ++ rest) = some (BitVec.ofNat 32 x, rest) := by
  have ha := readOctet_decimal (show x / 16777216 % 256 ≤ 255 by omega) (endsDigits_dot
    (decimal (x / 65536 % 256) ++ '.' :: (decimal (x / 256 % 256) ++ '.' :: (decimal (x % 256)
      ++ rest))))
  have hb := readOctet_decimal (show x / 65536 % 256 ≤ 255 by omega) (endsDigits_dot
    (decimal (x / 256 % 256) ++ '.' :: (decimal (x % 256) ++ rest)))
  have hc := readOctet_decimal (show x / 256 % 256 ≤ 255 by omega) (endsDigits_dot
    (decimal (x % 256) ++ rest))
  have hd := readOctet_decimal (show x % 256 ≤ 255 by omega) hrest
  have hjoin : ((x / 16777216 % 256 * 256 + x / 65536 % 256) * 256 + x / 256 % 256) * 256
      + x % 256 = x := by omega
  simp [readIpv4, ipv4Chars, ha, hb, hc, hd, skipChar, ofOctets, hjoin]

/-- The decimal digits at the front of hexadecimal ones end at another digit or at what follows
them, in either case not at a dot. -/
theorem takeDigits_head?_ne_dot {ds : List Nat} (hds : ∀ d ∈ ds, d < 16) {rest : List Char}
    (hrest : EndsDigits 10 rest) (hdot : rest.head? ≠ some '.') (value count : Nat) :
    (takeDigits 10 (ds.map Nat.digitChar ++ rest) value count).2.2.head? ≠ some '.' := by
  induction ds generalizing value count with
  | nil =>
    cases rest with
    | nil => simp [takeDigits]
    | cons c rest =>
      have hc : Numeral.digit? 10 c = none := hrest c (by simp)
      simpa [takeDigits, hc] using hdot
  | cons d ds ih =>
    have hne : Nat.digitChar d ≠ '.' :=
      Numeral.digitChar_ne (Nat.le_refl 16) (hds d (by simp)) (by decide)
    cases hd : Numeral.digit? 10 (Nat.digitChar d) with
    | none => simp [takeDigits, hd, hne]
    | some e => simpa [takeDigits, hd] using ih (fun e he => hds e (by simp [he])) _ _

/-- What starts with hexadecimal digits but does not go on with a dot is no IPv4 address. -/
theorem readIpv4_eq_none {ds : List Nat} (hds : ∀ d ∈ ds, d < 16) {rest : List Char}
    (hrest : EndsDigits 10 rest) (hdot : rest.head? ≠ some '.') :
    readIpv4 (ds.map Nat.digitChar ++ rest) = none := by
  have hoctet : ∀ n more, readOctet (ds.map Nat.digitChar ++ rest) = some (n, more) →
      skipChar '.' more = none := by
    intro n more hread
    have hmore := takeDigits_head?_ne_dot hds hrest hdot 0 0
    rw [readOctet] at hread
    split at hread
    next value count behind htake =>
      rw [htake] at hmore
      split at hread
      · cases hread
      · have : behind = more := by
          have := Option.some.inj hread
          exact (Prod.mk.inj this).2
        subst this
        cases behind with
        | nil => rfl
        | cons c behind => simpa [skipChar] using hmore
  rw [readIpv4]
  cases hread : readOctet (ds.map Nat.digitChar ++ rest) with
  | none => rfl
  | some r =>
    obtain ⟨n, more⟩ := r
    simp [hoctet n more hread]

/-! ### Groups -/

/-- What may stand behind a run of groups: the end, or the mark of groups that are left out. -/
def EndsGroups (rest : List Char) : Prop :=
  rest = [] ∨ ∃ more, rest = ':' :: ':' :: more

/-- Groups with a colon in front of each of them. -/
def colonGroups (gs : List Nat) : List Char :=
  gs.flatMap fun g => ':' :: hexadecimal g

theorem groupChars_cons (g : Nat) (gs : List Nat) :
    groupChars (g :: gs) = hexadecimal g ++ colonGroups gs := by
  induction gs generalizing g with
  | nil => simp [groupChars, colonGroups]
  | cons h gs ih =>
    rw [groupChars, ih h]
    · simp [colonGroups]
    · simp

/-- Behind a group there is a colon or nothing. -/
theorem colonGroups_head (gs : List Nat) {rest : List Char} (hrest : EndsGroups rest) :
    ∀ c ∈ (colonGroups gs ++ rest).head?, c = ':' := by
  intro c hc
  cases gs with
  | nil =>
    rcases hrest with rfl | ⟨more, rfl⟩
    · simp [colonGroups] at hc
    · simpa [colonGroups, eq_comm] using hc
  | cons g gs => simpa [colonGroups, eq_comm] using hc

theorem endsDigits_of_colon (b : Nat) {rest : List Char}
    (hrest : ∀ c ∈ rest.head?, c = ':') : EndsDigits b rest := by
  intro c hc
  have hnone : Numeral.hexDigit? ':' = none := by decide
  rw [hrest c hc, Numeral.digit?, hnone]
  rfl

theorem readGroup_hexadecimal {g : Nat} (hg : g < 65536) {rest : List Char}
    (hrest : ∀ c ∈ rest.head?, c = ':') : readGroup (hexadecimal g ++ rest) = some (g, rest) := by
  have htake := takeDigits_toDigits (b := 16) (by omega) (by omega) g
    (endsDigits_of_colon 16 hrest)
  have hpos : 0 < (Nat.toDigits 16 g).length := Nat.length_toDigits_pos
  have hfour : (Nat.toDigits 16 g).length ≤ 4 :=
    (Nat.length_toDigits_le_iff (by omega) (by omega)).mpr (by omega)
  have hnone : ¬ ((Nat.toDigits 16 g).length = 0 ∨ 4 < (Nat.toDigits 16 g).length) := by omega
  rw [readGroup, hexadecimal, htake]
  simp only [if_neg hnone]

theorem readIpv4_hexadecimal (g : Nat) {rest : List Char}
    (hrest : ∀ c ∈ rest.head?, c = ':') : readIpv4 (hexadecimal g ++ rest) = none := by
  obtain ⟨ds, hds⟩ := exists_digits (b := 16) (by omega) g
  rw [hexadecimal, hds.chars]
  apply readIpv4_eq_none hds.lt (endsDigits_of_colon 10 hrest)
  intro hdot
  exact absurd (hrest '.' hdot) (by decide)

/-- No group and no IPv4 address starts with a colon. -/
theorem readGroup_colon (cs : List Char) : readGroup (':' :: cs) = none := by
  have hnone : Numeral.digit? 16 ':' = none := by decide
  simp [readGroup, takeDigits, hnone]

theorem readIpv4_colon (cs : List Char) : readIpv4 (':' :: cs) = none := by
  have hnone : Numeral.digit? 10 ':' = none := by decide
  simp [readIpv4, readOctet, takeDigits, hnone]

/-- One group is read, and then the groups behind it. -/
theorem readGroups_step {g : Nat} (hg : g < 65536) (slots : Nat) (first : Bool)
    {rest : List Char} (hrest : ∀ c ∈ rest.head?, c = ':') :
    readGroups (slots + 1) first ((if first then [] else [':']) ++ (hexadecimal g ++ rest))
      = ⟨g :: (readGroups slots false rest).groups, (readGroups slots false rest).endsInIpv4,
        (readGroups slots false rest).rest⟩ := by
  have hgroup := readGroup_hexadecimal hg hrest
  have hipv4 := readIpv4_hexadecimal g hrest
  cases first <;> simp [readGroups, skipChar, hgroup, hipv4]

/-- A run of groups ends where the text ends or groups are left out. -/
theorem readGroups_stop {slots : Nat} {first : Bool} {rest : List Char}
    (hrest : EndsGroups rest) (hfirst : first = true → rest ≠ []) :
    readGroups slots first rest = ⟨[], false, rest⟩ := by
  cases slots with
  | zero => rfl
  | succ slots =>
    rcases hrest with rfl | ⟨more, rfl⟩
    · cases first with
      | true => exact absurd rfl (hfirst rfl)
      | false => simp [readGroups, skipChar]
    · cases first <;> simp [readGroups, skipChar, readGroup_colon, readIpv4_colon]

/-- A run of groups behind another one is read to its end. -/
theorem readGroups_colonGroups {gs : List Nat} (hgs : ∀ g ∈ gs, g < 65536) (slots : Nat)
    (hlen : gs.length ≤ slots) {rest : List Char} (hrest : EndsGroups rest) :
    readGroups slots false (colonGroups gs ++ rest) = ⟨gs, false, rest⟩ := by
  induction gs generalizing slots with
  | nil => exact readGroups_stop hrest (by simp)
  | cons g gs ih =>
    obtain ⟨slots, rfl⟩ : ∃ n, slots = n + 1 := ⟨slots - 1, by simp at hlen; omega⟩
    have hmore := ih (fun h hh => hgs h (by simp [hh])) slots (by simpa using hlen)
    have hstep := readGroups_step (hgs g (by simp)) slots false
      (colonGroups_head gs hrest)
    rw [hmore] at hstep
    simpa [colonGroups] using hstep

/-- A run of groups at the front is read to its end. -/
theorem readGroups_groupChars {gs : List Nat} (hgs : ∀ g ∈ gs, g < 65536) (slots : Nat)
    (hlen : gs.length ≤ slots) (rest : List Char) (hrest : EndsGroups rest)
    (hsome : gs ≠ [] ∨ rest ≠ []) :
    readGroups slots true (groupChars gs ++ rest) = ⟨gs, false, rest⟩ := by
  cases gs with
  | nil =>
    apply readGroups_stop hrest
    intro _
    simpa using hsome
  | cons g gs =>
    obtain ⟨slots, rfl⟩ : ∃ n, slots = n + 1 := ⟨slots - 1, by simp at hlen; omega⟩
    have htail : ∀ h ∈ gs, h < 65536 := fun h hh => hgs h (by simp [hh])
    have hmore := readGroups_colonGroups htail slots (by simpa using hlen) hrest
    have hstep := readGroups_step (hgs g (by simp)) slots true
      (colonGroups_head gs hrest)
    rw [hmore] at hstep
    rw [groupChars_cons]
    simpa using hstep

/-! ### IPv6 -/

/-- The groups at the front that are counted as zeros are zeros. -/
theorem eq_replicate_append_drop (gs : List Nat) :
    gs = List.replicate (leadingZeros gs) 0 ++ gs.drop (leadingZeros gs) := by
  induction gs with
  | nil => rfl
  | cons g gs ih =>
    by_cases hg : g = 0
    · subst hg
      have hcount : leadingZeros (0 :: gs) = leadingZeros gs + 1 := by simp [leadingZeros]
      rw [hcount, List.replicate_succ, List.drop_succ_cons, List.cons_append, ← ih]
    · have hcount : leadingZeros (g :: gs) = 0 := by simp [leadingZeros, hg]
      simp [hcount]

/-- The run that is picked lies within the groups and consists of zeros. -/
theorem longestZeroRun_spec (gs : List Nat) (first : Nat) :
    ∃ before after, gs = before ++ List.replicate (longestZeroRun first gs).2 0 ++ after ∧
      (longestZeroRun first gs).1 = first + before.length := by
  induction gs generalizing first with
  | nil => exact ⟨[], [], by simp [longestZeroRun], by simp [longestZeroRun]⟩
  | cons g gs ih =>
    simp only [longestZeroRun]
    split
    · exact ⟨[], (g :: gs).drop (leadingZeros (g :: gs)),
        by simpa using eq_replicate_append_drop (g :: gs), by simp⟩
    · obtain ⟨before, after, hgs, hstart⟩ := ih (first + 1)
      refine ⟨g :: before, after, ?_, ?_⟩
      · simp only [List.cons_append]
        rw [← hgs]
      · rw [hstart]
        simp
        omega

/-- Groups around a run of zeros that is left out are read back: those in front of the run are
read, then those behind it, and the run fills the gap. -/
theorem readIpv6_shortened {before after : List Nat} (hbefore : ∀ g ∈ before, g < 65536)
    (hafter : ∀ g ∈ after, g < 65536) {length : Nat} (hlong : 1 < length)
    (hcount : before.length + length + after.length = 8) :
    readIpv6 (groupChars before ++ ':' :: ':' :: groupChars after) =
      some (ofGroups (before ++ List.replicate length 0 ++ after), []) := by
  have hhead := readGroups_groupChars hbefore 8 (by omega)
    (':' :: ':' :: groupChars after) (.inr ⟨_, rfl⟩) (.inr (by simp))
  have htail : readGroups (7 - before.length) true (groupChars after) = ⟨after, false, []⟩ := by
    cases hnil : after with
    | nil => cases h : 7 - before.length <;> simp [readGroups, groupChars, readIpv4, readOctet,
        takeDigits, readGroup]
    | cons g more =>
      have hread := readGroups_groupChars hafter (7 - before.length) (by omega) []
        (.inl rfl) (.inl (by simp [hnil]))
      simpa [hnil] using hread
  have hne : before.length ≠ 8 := by omega
  have hgap : 8 - before.length - after.length = length := by omega
  rw [readIpv6, hhead]
  simp only [hne, if_false, skipChar, if_true]
  simp [htail, hgap]

/-- Groups that make up an address are read back. -/
theorem readIpv6_ipv6Chars {gs : List Nat} (hgs : ∀ g ∈ gs, g < 65536) (hlen : gs.length = 8) :
    readIpv6 (ipv6Chars gs) = some (ofGroups gs, []) := by
  obtain ⟨before, after, hsplit, hstart⟩ := longestZeroRun_spec gs 0
  rw [ipv6Chars]
  cases hrun : longestZeroRun 0 gs with
  | mk start length =>
    rw [hrun] at hsplit hstart
    simp only at hsplit hstart ⊢
    split
    · next hlong =>
      have hcount : before.length + length + after.length = 8 := by
        rw [← hlen, hsplit]
        simp
        omega
      have htake : gs.take start = before := by
        rw [hsplit, hstart, List.append_assoc]
        simp
      have hdrop : gs.drop (start + length) = after := by
        have hfront : start + length = (before ++ List.replicate length 0).length := by
          rw [hstart]
          simp
        rw [hsplit, hfront, List.drop_left]
      have hbefore : ∀ g ∈ before, g < 65536 := fun g hg => hgs g (by rw [hsplit]; simp [hg])
      have hafter : ∀ g ∈ after, g < 65536 := fun g hg => hgs g (by rw [hsplit]; simp [hg])
      rw [htake, hdrop, readIpv6_shortened hbefore hafter hlong hcount, ← hsplit]
    · -- No run is long enough, and all groups are there.
      have hread := readGroups_groupChars hgs 8 (by omega) [] (.inl rfl)
        (.inl (by intro h; simp [h] at hlen))
      rw [List.append_nil] at hread
      simp [readIpv6, hread, hlen]

/-- No text of groups is read as an IPv4 address. -/
theorem readIpv4_ipv6Chars {gs : List Nat} (hlen : gs.length = 8) :
    readIpv4 (ipv6Chars gs) = none := by
  have hgroups : ∀ (hs : List Nat) (rest : List Char), EndsGroups rest →
      (hs ≠ [] ∨ rest ≠ []) → readIpv4 (groupChars hs ++ rest) = none := by
    intro hs rest hrest hsome
    cases hs with
    | nil =>
      rcases hrest with rfl | ⟨more, rfl⟩
      · simp at hsome
      · exact readIpv4_colon _
    | cons h hs =>
      rw [groupChars_cons, List.append_assoc]
      exact readIpv4_hexadecimal h (colonGroups_head hs hrest)
  rw [ipv6Chars]
  cases longestZeroRun 0 gs with
  | mk start length =>
    simp only
    split
    · exact hgroups _ _ (.inr ⟨_, rfl⟩) (.inr (by simp))
    · have hread := hgroups gs [] (.inl rfl) (.inl (by intro h; simp [h] at hlen))
      simpa using hread

/-- The groups of an address are below `65536` and make it up again. -/
theorem length_groupsOf (n value : Nat) : (groupsOf n value).length = n := by
  simp [groupsOf]

theorem groupsOf_lt (n value : Nat) : ∀ g ∈ groupsOf n value, g < 65536 := by
  intro g hg
  obtain ⟨i, -, rfl⟩ := List.mem_map.mp hg
  exact Nat.mod_lt _ (by omega)

theorem ofGroups_groupsOf (a : BitVec 128) : ofGroups (groupsOf 8 a.toNat) = a := by
  generalize hx : a.toNat = x
  have hlt : x < 2 ^ 128 := by
    rw [← hx]
    exact a.isLt
  have hgroups : groupsOf 8 x = [x / 2 ^ 112 % 65536, x / 2 ^ 96 % 65536, x / 2 ^ 80 % 65536,
      x / 2 ^ 64 % 65536, x / 2 ^ 48 % 65536, x / 2 ^ 32 % 65536, x / 2 ^ 16 % 65536,
      x % 65536] := by
    simp [groupsOf, List.range, List.range.loop, Nat.shiftRight_eq_div_pow]
  have hfold : ofGroups (groupsOf 8 x) = BitVec.ofNat 128 x := by
    rw [hgroups, ofGroups]
    congr 1
    simp only [List.foldl_cons, List.foldl_nil]
    omega
  rw [hfold, ← hx, BitVec.ofNat_toNat, BitVec.setWidth_eq]

/-- An address mapped from IPv4 is read back: its last two groups are read as octets. -/
theorem readIpv6_mapped {x : Nat} (hx : x / 4294967296 = 0xffff) :
    readIpv6 ("::ffff:".toList ++ ipv4Chars (x % 4294967296)) = some (BitVec.ofNat 128 x, []) := by
  have hlow : x % 4294967296 < 4294967296 := Nat.mod_lt _ (by omega)
  have hipv4 := readIpv4_ipv4Chars hlow [] (by simp [EndsDigits])
  rw [List.append_nil] at hipv4
  have htext : "::ffff:".toList ++ ipv4Chars (x % 4294967296)
      = ':' :: ':' :: (hexadecimal 0xffff ++ ':' :: ipv4Chars (x % 4294967296)) := by
    have hgroup : hexadecimal 0xffff = ['f', 'f', 'f', 'f'] := by decide
    rw [hgroup]
    rfl
  have hhead : readGroups 8 true (':' :: ':' :: (hexadecimal 0xffff
      ++ ':' :: ipv4Chars (x % 4294967296)))
      = ⟨[], false, ':' :: ':' :: (hexadecimal 0xffff ++ ':' :: ipv4Chars (x % 4294967296))⟩ :=
    readGroups_stop (.inr ⟨_, rfl⟩) (by simp)
  have hlast : readGroups 6 false (':' :: ipv4Chars (x % 4294967296))
      = ⟨[x % 4294967296 / 65536, x % 4294967296 % 65536], true, []⟩ := by
    simp [readGroups, skipChar, hipv4, BitVec.toNat_ofNat]
  have htail := readGroups_step (show 0xffff < 65536 by omega) 6 true
    (show ∀ c ∈ (':' :: ipv4Chars (x % 4294967296)).head?, c = ':' by simp)
  rw [hlast] at htail
  rw [htext, readIpv6, hhead]
  simp only [List.length_nil, skipChar, if_true]
  simp only [if_true, List.nil_append] at htail
  simp [htail, ofGroups]
  congr 1
  omega

/-! ### Whole texts -/

/-- Every address is read back from its text. -/
theorem ofChars?_toChars (a : IpAddress) : ofChars? a.toChars = some a := by
  cases a with
  | v4 x =>
    have hread := readIpv4_ipv4Chars x.isLt [] (by simp [EndsDigits])
    rw [List.append_nil] at hread
    simp [ofChars?, toChars, hread]
  | v6 x =>
    rw [toChars]
    split
    · next hmapped =>
      rw [Nat.shiftRight_eq_div_pow] at hmapped
      have hread := readIpv6_mapped hmapped
      have hipv4 : readIpv4 ("::ffff:".toList ++ ipv4Chars (x.toNat % 4294967296)) = none :=
        readIpv4_colon _
      simp only [ofChars?, hipv4, hread]
      simp
    · have hread := readIpv6_ipv6Chars (groupsOf_lt 8 x.toNat) (length_groupsOf 8 x.toNat)
      have hipv4 := readIpv4_ipv6Chars (length_groupsOf 8 x.toNat)
      simp only [ofChars?, hipv4, hread, ofGroups_groupsOf]
      simp

theorem ofString?_toString (a : IpAddress) : ofString? (toString a) = some a := by
  have htext : (toString a).toList = a.toChars := String.toList_ofList
  rw [ofString?, htext, ofChars?_toChars]

/-- Different addresses have different texts. -/
theorem toString_injective : Function.Injective (toString : IpAddress → String) := by
  intro a b h
  have hread := ofString?_toString a
  rw [h, ofString?_toString b] at hread
  exact (Option.some.inj hread).symm

end Provisioning.IpAddress
