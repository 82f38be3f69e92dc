import Mathlib.Data.List.Nodup
import Provisioning.Parcel.Rendering
import Provisioning.Proofs.Codec
import Provisioning.Proofs.Rendering

/-! # Renderings without free text

    Numbers, addresses and byte strings are written in digits and a few signs, none of which is a
    mark or the first character of `null`. So what is put together of them is legible: DHCP options,
    information elements, initial configurations and what the packet filter can do. Each of these is
    the table of its members, and all that is left to say of it is that the members make up the
    record.

    Main statement: `renderings_lossless`.
-/

namespace Provisioning

open Rendering

/-! ### Characters -/

/-- A character of a value that is no free text. -/
def IsPlainChar (c : Char) : Prop :=
  IsAddressChar c ∨ c = '/' ∨ c = '-'

/-- Such a character is no mark, and `null` does not start with it. -/
theorem IsPlainChar.ne {c : Char} (h : IsPlainChar c) : ¬ IsMark c ∧ c ≠ 'n' := by
  have hdigits : ∀ d : Fin 16, ¬ IsMark (Nat.digitChar d) ∧ Nat.digitChar d ≠ 'n' := by decide
  rcases h with (rfl | rfl | ⟨d, hd, rfl⟩) | rfl | rfl
  · decide
  · decide
  · exact hdigits ⟨d, hd⟩
  · decide
  · decide

namespace Rendering

/-! ### Plain values -/

section

variable {α : Type} {render : α → String}

/-- A rendering of values that are no free text. -/
structure Plain (render : α → String) : Prop where
  injective : Function.Injective render
  chars : ∀ x, ∀ c ∈ (render x).toList, IsPlainChar c

theorem Plain.legible (h : Plain render) : Legible render :=
  legible_of_unmarked h.injective fun x c hc => (h.chars x c hc).ne.1

theorem Plain.head?_ne (h : Plain render) (x : α) : (render x).toList.head? ≠ some 'n' :=
  fun hn => (h.chars x 'n' (List.mem_of_head? hn)).ne.2 rfl

/-- A list of plain values is legible unless one of them has an empty text. -/
theorem Plain.legible_list (h : Plain render) (hne : ∀ x, (render x).toList ≠ []) :
    Legible (list render) := by
  apply Rendering.legible_list h.legible
  intro x
  obtain ⟨c, more, htext⟩ := List.exists_cons_of_ne_nil (hne x)
  refine ⟨c, by rw [htext]; rfl, ?_⟩
  exact (h.chars x c (by rw [htext]; exact List.mem_cons_self)).ne.1

end

theorem isPlainChar_of_mem_decimal {n : Nat} {c : Char} (hc : c ∈ Numeral.decimal n) :
    IsPlainChar c :=
  .inl (IpAddress.isAddressChar_of_mem_toDigits (by decide) (by decide) hc)

theorem plain_int32 : Plain int32 := by
  constructor
  · intro m n h
    exact Int32.toInt_inj.mp (Numeral.signedDecimal_injective (String.ofList_injective h))
  · intro n c hc
    have hc : c ∈ Numeral.signedDecimal n.toInt := by rwa [int32, String.toList_ofList] at hc
    cases hsign : n.toInt with
    | ofNat k =>
      rw [hsign] at hc
      exact isPlainChar_of_mem_decimal hc
    | negSucc k =>
      rw [hsign] at hc
      rcases List.mem_cons.mp hc with rfl | hc
      · exact .inr (.inr rfl)
      · exact isPlainChar_of_mem_decimal hc

theorem plain_uint8 : Plain fun n : UInt8 => String.ofList (Numeral.decimal n.toNat) := by
  constructor
  · intro m n h
    exact UInt8.toNat_inj.mp (Numeral.decimal_injective (String.ofList_injective h))
  · intro n c hc
    rw [String.toList_ofList] at hc
    exact isPlainChar_of_mem_decimal hc

/-! ### Bytes -/

/-- Reads bytes from pairs of hexadecimal digits. -/
def readBytes : List Char → Option (List UInt8)
  | [] => some []
  | [_] => none
  | a :: b :: rest => do
    let high ← Numeral.hexDigit? a
    let low ← Numeral.hexDigit? b
    let bs ← readBytes rest
    return UInt8.ofNat (high * 16 + low) :: bs

/-- Byte strings are read back from their text. -/
theorem readBytes_bytes (bs : List UInt8) : readBytes (bytes bs).toList = some bs := by
  rw [bytes, String.toList_ofList]
  induction bs with
  | nil => rfl
  | cons b bs ih =>
    have hb : b.toNat < 256 := b.toNat_lt
    have hhigh := Numeral.hexDigit?_hexDigit (show b.toNat / 16 < 16 by omega)
    have hlow := Numeral.hexDigit?_hexDigit (show b.toNat % 16 < 16 by omega)
    have hjoin : b.toNat / 16 * 16 + b.toNat % 16 = b.toNat := by omega
    show readBytes (_ :: _ :: bs.flatMap Numeral.hexPair) = _
    simp only [readBytes, hhigh, hlow, ih, Option.bind_eq_bind, Option.bind_some, hjoin,
      UInt8.ofNat_toNat, Option.pure_def]

theorem plain_bytes : Plain bytes := by
  constructor
  · intro bs bs' h
    have hread := readBytes_bytes bs
    rw [h, readBytes_bytes bs'] at hread
    exact (Option.some.inj hread).symm
  · intro bs c hc
    rw [bytes, String.toList_ofList] at hc
    obtain ⟨b, -, hc⟩ := List.mem_flatMap.mp hc
    obtain ⟨d, hd, rfl⟩ := MacAddress.exists_of_mem_hexPair hc
    rw [Numeral.hexDigit_eq_digitChar hd]
    exact .inl (.inr (.inr ⟨d, hd, rfl⟩))

/-! ### Addresses -/

theorem plain_ipAddress : Plain (toString : IpAddress → String) := by
  constructor
  · exact IpAddress.toString_injective
  · intro a c hc
    have hc : c ∈ (String.ofList a.toChars).toList := hc
    rw [String.toList_ofList] at hc
    exact .inl (IpAddress.isAddressChar_of_mem_toChars hc)

/-- The text of an address is not empty, since no address is read from an empty text. -/
theorem toList_ipAddress_ne_nil (a : IpAddress) : (toString a).toList ≠ [] := by
  intro h
  have hread := IpAddress.ofString?_toString a
  rw [IpAddress.ofString?, h] at hread
  cases hread

theorem isPlainChar_of_mem_slashChars {a : IpAddress} {n : Nat} {c : Char}
    (hc : c ∈ (String.ofList (slashChars a n)).toList) : IsPlainChar c := by
  rw [String.toList_ofList] at hc
  rcases List.mem_append.mp hc with hc | hc
  · exact .inl (IpAddress.isAddressChar_of_mem_toChars hc)
  · rcases List.mem_cons.mp hc with rfl | hc
    · exact .inr (.inl rfl)
    · exact isPlainChar_of_mem_decimal hc

theorem toList_slashChars_ne_nil (a : IpAddress) (n : Nat) :
    (String.ofList (slashChars a n)).toList ≠ [] := by
  rw [String.toList_ofList, slashChars]
  exact List.append_ne_nil_of_right_ne_nil _ (List.cons_ne_nil _ _)

theorem plain_linkAddress : Plain (toString : LinkAddress → String) where
  injective := Codec.injective_of_read_write LinkAddress.ofString_toString
  chars _ _ := isPlainChar_of_mem_slashChars

theorem plain_ipPrefix : Plain (toString : IpPrefix → String) where
  injective := Codec.injective_of_read_write IpPrefix.ofString_toString
  chars _ _ := isPlainChar_of_mem_slashChars

end Rendering

/-! ### Records -/

/-- What is shown of a DHCP option. -/
def DhcpOption.shown : List (RecordMember DhcpOption) := [
  ⟨"type", code, _, plain_uint8.legible⟩,
  ⟨"value", value?, option bytes, legible_option plain_bytes.legible plain_bytes.head?_ne⟩]

theorem DhcpOption.legible : Legible (toString : DhcpOption → String) := by
  refine legible_record "DhcpOption" shown ?_
  intro x y h
  obtain ⟨code, value?⟩ := x
  obtain ⟨code', value?'⟩ := y
  simpa [shown] using h

/-- What is shown of an information element. -/
def InformationElementParcel.shown : List (RecordMember InformationElementParcel) := [
  ⟨"id", id, int32, plain_int32.legible⟩,
  ⟨"payload", payload, bytes, plain_bytes.legible⟩]

theorem InformationElementParcel.legible :
    Legible (toString : InformationElementParcel → String) := by
  refine legible_record "InformationElementParcelable" shown ?_
  intro x y h
  obtain ⟨id, payload⟩ := x
  obtain ⟨id', payload'⟩ := y
  simpa [shown] using h

/-- What is shown of an initial configuration. -/
def InitialParcel.shown : List (RecordMember InitialParcel) := [
  ⟨"ipAddresses", addresses, list toString,
    plain_linkAddress.legible_list fun a => toList_slashChars_ne_nil a.address a.length⟩,
  ⟨"directlyConnectedRoutes", routes, list toString,
    plain_ipPrefix.legible_list fun p => toList_slashChars_ne_nil p.address p.length⟩,
  ⟨"dnsServers", dnsServers, list toString,
    plain_ipAddress.legible_list toList_ipAddress_ne_nil⟩]

theorem InitialParcel.legible : Legible (toString : InitialParcel → String) := by
  refine legible_record "InitialConfigurationParcelable" shown ?_
  intro x y h
  obtain ⟨addresses, routes, dnsServers⟩ := x
  obtain ⟨addresses', routes', dnsServers'⟩ := y
  simpa [shown] using h

/-- What is shown of what the packet filter can do. -/
def ApfCapabilities.shown : List (RecordMember ApfCapabilities) := [
  ⟨"version", version, int32, plain_int32.legible⟩,
  ⟨"maxSize", maximumProgramSize, int32, plain_int32.legible⟩,
  ⟨"format", packetFormat, int32, plain_int32.legible⟩]

theorem ApfCapabilities.legible : Legible (toString : ApfCapabilities → String) := by
  refine legible_record "ApfCapabilities" shown ?_
  intro x y h
  obtain ⟨version, maximumProgramSize, packetFormat⟩ := x
  obtain ⟨version', maximumProgramSize', packetFormat'⟩ := y
  simpa [shown] using h

/-! ### Lists and options of records -/

theorem legible_dhcpOptions : Legible (option (list (toString : DhcpOption → String))) := by
  have hlist := legible_list DhcpOption.legible fun o => ⟨'D', head?_record rfl _, by decide⟩
  refine legible_option hlist fun os => ?_
  simp [list]

theorem legible_elements : Legible (list (toString : InformationElementParcel → String)) :=
  legible_list InformationElementParcel.legible fun e => ⟨'I', head?_record rfl _, by decide⟩

theorem legible_apfCapabilities : Legible (option (toString : ApfCapabilities → String)) := by
  refine legible_option ApfCapabilities.legible fun c => ?_
  rw [show (toString c).toList.head? = some 'A' from head?_record rfl _]
  decide

/-- Nothing is lost in rendering what holds no free text. DHCP options, the elements of a scan, the
initial configuration and what the packet filter can do have the same text only if they are the
same. So no options, no option, an option without a value and one with an empty value are shown
differently, and bytes are read back from their digits, however many there are. -/
theorem renderings_lossless :
    (∀ x y : Option (List DhcpOption),
      option (list toString) x = option (list toString) y ↔ x = y) ∧
    (∀ x y : List InformationElementParcel, list toString x = list toString y ↔ x = y) ∧
    (∀ x y : InitialParcel, toString x = toString y ↔ x = y) ∧
    (∀ x y : Option ApfCapabilities, option toString x = option toString y ↔ x = y) ∧
    (∀ m n : UInt8, ([none, some [], some [⟨m, none⟩], some [⟨n, some []⟩]].map
      (option (list (toString : DhcpOption → String)))).Nodup) ∧
    ∀ bs : List UInt8, readBytes (bytes bs).toList = some bs := by
  refine ⟨?_, ?_, ?_, ?_, ?_, readBytes_bytes⟩
  · intro x y
    exact legible_dhcpOptions.injective.eq_iff
  · intro x y
    exact legible_elements.injective.eq_iff
  · intro x y
    exact InitialParcel.legible.injective.eq_iff
  · intro x y
    exact legible_apfCapabilities.injective.eq_iff
  · intro m n
    apply List.Nodup.map legible_dhcpOptions.injective
    simp

end Provisioning
