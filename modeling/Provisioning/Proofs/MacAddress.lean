import Provisioning.MacAddress
import Provisioning.Proofs.Numeral

/-! # MAC addresses are read back from their text

    No hexadecimal digit is a colon, so the parts of a text are the pairs that were written.
-/

namespace Provisioning.MacAddress

/-- The two digits of a byte are read as the byte. -/
theorem pair?_hexPair (b : UInt8) : pair? (Numeral.hexPair b) = some b := by
  have hlength : (Numeral.hexPair b).length = 2 := rfl
  simp [pair?, hlength, Numeral.readNat_hexPair]

theorem exists_of_mem_hexPair {b : UInt8} {c : Char} (hc : c ∈ Numeral.hexPair b) :
    ∃ d, d < 16 ∧ c = Numeral.hexDigit d := by
  have hb : b.toNat < 256 := b.toNat_lt
  simp only [Numeral.hexPair, List.mem_cons, List.not_mem_nil, or_false] at hc
  rcases hc with hc | hc
  · exact ⟨b.toNat / 16, by omega, hc⟩
  · exact ⟨b.toNat % 16, by omega, hc⟩

theorem colon_not_mem_hexPair (b : UInt8) : ':' ∉ Numeral.hexPair b := by
  intro hc
  obtain ⟨d, hd, hcolon⟩ := exists_of_mem_hexPair hc
  rw [Numeral.hexDigit_eq_digitChar hd] at hcolon
  exact Numeral.digitChar_ne (Nat.le_refl 16) hd (by decide) hcolon.symm

/-! ### Parts -/

theorem splitOnChar_eq (sep : Char) (cs : List Char) : splitOnChar sep cs = cs.splitOn sep := by
  induction cs with
  | nil => rfl
  | cons c cs ih =>
    have hsome : cs.splitOn sep ≠ [] := List.splitOn_ne_nil sep cs
    rw [splitOnChar, List.splitOn_cons_eq_if_modifyHead, ih]
    by_cases hc : c = sep
    · simp [hc]
    · cases hparts : cs.splitOn sep with
      | nil => exact absurd hparts hsome
      | cons part parts => simp [hc]

theorem byteChars_eq (bytes : List UInt8) :
    byteChars bytes = [':'].intercalate (bytes.map Numeral.hexPair) := by
  induction bytes with
  | nil => rfl
  | cons b bytes ih =>
    cases bytes with
    | nil => exact List.intercalate_singleton.symm
    | cons c bytes =>
      rw [byteChars, ih]
      · simp [List.intercalate_cons_cons]
      · exact List.cons_ne_nil c bytes

/-- The parts of a text of bytes are the texts of the bytes. -/
theorem splitOnChar_byteChars {bytes : List UInt8} (h : bytes ≠ []) :
    splitOnChar ':' (byteChars bytes) = bytes.map Numeral.hexPair := by
  rw [splitOnChar_eq, byteChars_eq]
  apply List.splitOn_intercalate
  · intro part hpart
    obtain ⟨b, -, rfl⟩ := List.mem_map.mp hpart
    exact colon_not_mem_hexPair b
  · exact fun hnil => h (List.map_eq_nil_iff.mp hnil)

/-- All values exist exactly if each of them does. -/
theorem mapM_eq_some_iff {α β : Type} {g : α → Option β} {xs : List α} {ys : List β} :
    xs.mapM g = some ys ↔ xs.map g = ys.map some := by
  induction xs generalizing ys with
  | nil => cases ys <;> simp
  | cons x xs ih =>
    rw [List.mapM_cons]
    constructor
    · intro h
      obtain ⟨y, hy, h⟩ := Option.bind_eq_some_iff.mp h
      obtain ⟨ys', hys, h⟩ := Option.bind_eq_some_iff.mp h
      obtain rfl := Option.some.inj h
      rw [List.map_cons, List.map_cons, hy, ih.mp hys]
    · intro h
      cases ys with
      | nil => cases h
      | cons y ys =>
        obtain ⟨hy, hys⟩ := List.cons.inj h
        rw [hy, ih.mpr hys]
        rfl

/-- An address is read from the texts whose parts are pairs for its bytes. -/
theorem ofString_eq_ok_iff {s : String} {m : MacAddress} :
    ofString s = .ok m ↔ (splitOnChar ':' s.toList).map pair? = m.bytes.map some := by
  rw [← mapM_eq_some_iff]
  unfold ofString
  constructor
  · intro h
    split at h
    · cases h
    · next bytes hbytes =>
      split at h
      · obtain rfl := Except.ok.inj h
        exact hbytes
      · cases h
  · intro h
    simp only [h, m.length_eq, dif_pos]

/-! ### Characters -/

/-- What stands in joined parts stands in one of them or between two. -/
theorem mem_intercalate {sep c : Char} {parts : List (List Char)}
    (h : c ∈ [sep].intercalate parts) : c = sep ∨ ∃ part ∈ parts, c ∈ part := by
  induction parts with
  | nil => cases h
  | cons part parts ih =>
    cases parts with
    | nil =>
      rw [List.intercalate_singleton] at h
      exact .inr ⟨part, List.mem_cons_self, h⟩
    | cons part' parts =>
      rw [List.intercalate_cons_cons, List.append_assoc] at h
      rcases List.mem_append.mp h with h | h
      · exact .inr ⟨part, List.mem_cons_self, h⟩
      rcases List.mem_cons.mp h with h | h
      · exact .inl h
      · rcases ih h with h | ⟨p, hp, h⟩
        · exact .inl h
        · exact .inr ⟨p, List.mem_cons_of_mem part hp, h⟩

/-- Every character of a part stands in the whole. -/
theorem mem_intercalate_of_mem {sep c : Char} {parts : List (List Char)} {part : List Char}
    (hpart : part ∈ parts) (hc : c ∈ part) : c ∈ [sep].intercalate parts := by
  induction parts with
  | nil => cases hpart
  | cons first parts ih =>
    cases parts with
    | nil =>
      obtain rfl := List.mem_singleton.mp hpart
      rwa [List.intercalate_singleton]
    | cons second parts =>
      rw [List.intercalate_cons_cons]
      rcases List.mem_cons.mp hpart with rfl | hpart
      · exact List.mem_append_left _ (List.mem_append_left _ hc)
      · exact List.mem_append_right _ (ih hpart)

/-- Bytes are written in lower case digits and colons. -/
theorem exists_of_mem_byteChars {bytes : List UInt8} {c : Char} (hc : c ∈ byteChars bytes) :
    c = ':' ∨ ∃ d, d < 16 ∧ c = Numeral.hexDigit d := by
  rw [byteChars_eq] at hc
  rcases mem_intercalate hc with hc | ⟨part, hpart, hc⟩
  · exact .inl hc
  obtain ⟨b, -, rfl⟩ := List.mem_map.mp hpart
  exact .inr (exists_of_mem_hexPair hc)

/-- Bytes are written in ASCII. -/
theorem toNat_lt_of_mem_byteChars {bytes : List UInt8} {c : Char} (hc : c ∈ byteChars bytes) :
    c.toNat < 0x80 := by
  rcases exists_of_mem_byteChars hc with rfl | ⟨d, hd, rfl⟩
  · decide
  · rw [Numeral.hexDigit_eq_digitChar hd]
    exact Numeral.toNat_digitChar_lt hd

theorem toList_toString (m : MacAddress) : (toString m).toList = byteChars m.bytes :=
  String.toList_ofList

theorem toNat_lt_of_mem_toString (m : MacAddress) : ∀ c ∈ (toString m).toList, c.toNat < 0x80 := by
  intro c hc
  rw [toList_toString] at hc
  exact toNat_lt_of_mem_byteChars hc

/-! ### Reading what was written -/

/-- Every MAC address is read back from its text. -/
theorem ofString_toString (m : MacAddress) : ofString (toString m) = .ok m := by
  have hne : m.bytes ≠ [] := by
    intro h
    have := m.length_eq
    simp [h] at this
  rw [ofString_eq_ok_iff, toList_toString, splitOnChar_byteChars hne, List.map_map]
  exact List.map_congr_left fun b _ => pair?_hexPair b

end Provisioning.MacAddress
