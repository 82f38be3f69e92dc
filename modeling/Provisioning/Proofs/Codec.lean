import Provisioning.Codec
import Provisioning.Proofs.Address.Slash
import Provisioning.Proofs.Datum
import Provisioning.Proofs.MacAddress
import Provisioning.Proofs.Mode

/-! # Laws of codecs

    A source carries data when it takes the value that stands for a datum for that datum. A codec
    is lawful when every such source gives back what was encoded, and when all that it encodes is
    readable. Lawful codecs are closed under lists and options, so the codec of a type is lawful
    by the way in which it is put together.
-/

namespace Provisioning

/-! ### Sources -/

/-- A source that takes the values `embed d` for the data `d`. -/
structure Source.Carries {ν : Type} (src : Source ν) (embed : Datum → ν) : Prop where
  boolean : ∀ b, src.boolean? (embed (.boolean b)) = some b
  integer : ∀ (signed : Bool) (i : Int), FitsWord i → signed = true ∨ 0 ≤ i →
    src.integer? signed (embed (.integer i)) = some i
  text : ∀ s, src.text? (embed (.text s)) = some s
  items : ∀ ds, src.items? (embed (.list ds)) = some (ds.map embed)
  members : ∀ ms, src.members? (embed (.record ms)) =
    some (ms.map fun m => (.ok m.1, embed m.2))
  absent : src.isPresent (embed .null) = .ok false
  present : ∀ d, d ≠ .null → src.isPresent (embed d) = .ok true

namespace Source

variable {ν : Type} {src : Source ν} {embed : Datum → ν}

/-- What is wanted is taken exactly if it is there. -/
theorem want_eq_ok_iff {α : Type} {take? : ν → Option α} {expected : String} {v : ν} {x : α} :
    src.want take? expected v = .ok x ↔ take? v = some x := by
  unfold want
  cases take? v with
  | none => exact ⟨nofun, nofun⟩
  | some y => exact ⟨fun h => congrArg some (Except.ok.inj h),
      fun h => congrArg Except.ok (Option.some.inj h)⟩

/-- A wanted value that is there is taken. -/
theorem want_of_some {α : Type} {take? : ν → Option α} {v : ν} {x : α} (expected : String)
    (h : take? v = some x) : src.want take? expected v = .ok x :=
  want_eq_ok_iff.mpr h

/-- A text is taken. -/
theorem Carries.want_text (hsrc : src.Carries embed) (expected : String) (s : String) :
    src.want src.text? expected (embed (.text s)) = .ok s :=
  want_of_some expected (hsrc.text s)

/-- An integer within the bounds is taken. -/
theorem Carries.integer_eq (hsrc : src.Carries embed) {least greatest i : Int}
    (expected : String) (hfits : FitsWord i) (hlo : least ≤ i) (hhi : i ≤ greatest) :
    src.integer least greatest expected (embed (.integer i)) = .ok i := by
  have hsign : decide (least < 0) = true ∨ 0 ≤ i := by
    by_cases h : least < 0
    · exact .inl (by simpa using h)
    · exact .inr (by omega)
  have htake := hsrc.integer (decide (least < 0)) i hfits hsign
  unfold Source.integer
  rw [want_of_some expected htake]
  show (if least ≤ i ∧ i ≤ greatest then _ else _) = _
  rw [if_pos ⟨hlo, hhi⟩]

end Source

namespace Codec

variable {τ : Type} {c : Codec τ} {n : Nat}

/-! ### Steps of decoding -/

/-- A step after another is done if both are. -/
theorem bind_eq_ok_iff {α β ε : Type} {x : Except ε α} {g : α → Except ε β} {b : β} :
    (x >>= g) = .ok b ↔ ∃ a, x = .ok a ∧ g a = .ok b := by
  cases x with
  | error e => exact ⟨nofun, nofun⟩
  | ok a =>
    constructor
    · intro h
      exact ⟨a, rfl, h⟩
    · rintro ⟨a', h, hg⟩
      obtain rfl := Except.ok.inj h
      exact hg

theorem map_eq_ok_iff {α β ε : Type} {g : α → β} {x : Except ε α} {b : β} :
    x.map g = .ok b ↔ ∃ a, x = .ok a ∧ g a = b := by
  cases x with
  | error e => exact ⟨nofun, nofun⟩
  | ok a =>
    constructor
    · intro h
      exact ⟨a, rfl, Except.ok.inj h⟩
    · rintro ⟨a', h, rfl⟩
      rw [Except.ok.inj h]
      rfl

theorem toOption_eq_some_iff {α ε : Type} {x : Except ε α} {a : α} :
    x.toOption = some a ↔ x = .ok a := by
  cases x with
  | error e => exact ⟨nofun, nofun⟩
  | ok b => exact ⟨fun h => congrArg Except.ok (Option.some.inj h),
      fun h => congrArg some (Except.ok.inj h)⟩

/-- Values that are read back from what is written for them are written differently. -/
theorem injective_of_read_write {α β ε : Type} {write : α → β} {read : β → Except ε α}
    (hback : ∀ x, read (write x) = .ok x) : Function.Injective write := by
  intro x y h
  have hread := hback x
  rw [h, hback y] at hread
  exact (Except.ok.inj hread).symm

/-- The first item is decoded, then the others. -/
theorem decodeItems_cons_iff {ν : Type} {src : Source ν} {v : ν} {vs : List ν} {xs : List τ} :
    decodeItems c src (v :: vs) = .ok xs ↔
      ∃ x ys, c.decode src v = .ok x ∧ decodeItems c src vs = .ok ys ∧ x :: ys = xs := by
  rw [decodeItems, bind_eq_ok_iff]
  constructor
  · rintro ⟨x, hx, h⟩
    obtain ⟨ys, hys, h⟩ := bind_eq_ok_iff.mp h
    exact ⟨x, ys, hx, hys, Except.ok.inj h⟩
  · rintro ⟨x, ys, hx, hys, rfl⟩
    exact ⟨x, hx, bind_eq_ok_iff.mpr ⟨ys, hys, rfl⟩⟩

/-! ### Lawful codecs -/

/-- A codec whose data are readable, being nested no more than `n` levels, and are decoded to what
was encoded. -/
class Lawful (c : Codec τ) (n : Nat) : Prop where
  readable : ∀ x, (c.encode x).Readable n
  decode_encode : ∀ {ν : Type} {src : Source ν} {embed : Datum → ν}, src.Carries embed →
    ∀ x, c.decode src (embed (c.encode x)) = .ok x

/-- A codec that has something to say of every value. -/
class NeverNull (c : Codec τ) : Prop where
  encode_ne_null : ∀ x, c.encode x ≠ .null

/-! ### Scalars -/

instance : Lawful boolean n where
  readable b := Datum.readable_boolean n b
  decode_encode hsrc b := Source.want_of_some _ (hsrc.boolean b)

instance : Lawful text n where
  readable s := Datum.readable_text n s
  decode_encode hsrc s := hsrc.want_text _ s

instance : NeverNull text := ⟨nofun⟩

theorem int32_bounds (n : Int32) : -2147483648 ≤ n.toInt ∧ n.toInt ≤ 2147483647 := by
  have hlo := n.le_toInt
  have hhi := n.toInt_lt
  omega

instance : Lawful int32 n where
  readable i := by
    have hbounds := int32_bounds i
    refine (Datum.readable_integer n _).mpr ⟨?_, ?_⟩ <;> omega
  decode_encode {ν src embed} hsrc i := by
    have hbounds := int32_bounds i
    have hfits : FitsWord i.toInt := by
      refine ⟨?_, ?_⟩ <;> omega
    have hread := hsrc.integer_eq "i32" hfits hbounds.1 hbounds.2
    show (src.integer _ _ "i32" (embed (.integer i.toInt))).map Int32.ofInt = .ok i
    rw [hread]
    exact congrArg Except.ok (Int32.ofInt_toInt i)

instance : Lawful byte n where
  readable b := by
    have hhi := b.toNat_lt
    refine (Datum.readable_integer n _).mpr ⟨?_, ?_⟩ <;> omega
  decode_encode {ν src embed} hsrc b := by
    have hhi := b.toNat_lt
    have hfits : FitsWord b.toNat := by
      refine ⟨?_, ?_⟩ <;> omega
    have hread := hsrc.integer_eq "u8" hfits (Int.natCast_nonneg b.toNat)
      (by omega : (b.toNat : Int) ≤ 255)
    show (src.integer 0 255 "u8" (embed (.integer b.toNat))).map _ = .ok b
    rw [hread]
    exact congrArg Except.ok (UInt8.ofNat_toNat (x := b))

/-- A value that travels as text is lawful if its text is read back. -/
theorem lawful_written {ε : Type} {print : τ → String} {read : String → Except ε τ}
    (failure : ε → Failure) (hread : ∀ x, read (print x) = .ok x) :
    Lawful (written print read failure) n where
  readable x := Datum.readable_text n _
  decode_encode {ν src embed} hsrc x := by
    have htext := hsrc.want_text "a string" (print x)
    unfold written
    simp only [htext, hread, bind, Except.bind]

/-- A value that travels as text is decoded from the sources of a text that is read as it. -/
theorem decode_written_eq_ok_iff {ε ν : Type} {print : τ → String} {read : String → Except ε τ}
    {failure : ε → Failure} {src : Source ν} {v : ν} {x : τ} :
    (written print read failure).decode src v = .ok x ↔
      ∃ s, src.text? v = some s ∧ read s = .ok x := by
  unfold written
  rw [bind_eq_ok_iff]
  refine exists_congr fun s => and_congr Source.want_eq_ok_iff ?_
  cases read s with
  | error e => exact ⟨nofun, nofun⟩
  | ok y => exact ⟨fun h => congrArg Except.ok (Except.ok.inj h),
      fun h => congrArg Except.ok (Except.ok.inj h)⟩

instance : Lawful linkAddress n :=
  lawful_written _ LinkAddress.ofString_toString

instance : NeverNull linkAddress := ⟨nofun⟩

instance : Lawful ipPrefix n :=
  lawful_written _ IpPrefix.ofString_toString

instance : Lawful macAddress n :=
  lawful_written _ MacAddress.ofString_toString

instance : NeverNull macAddress := ⟨nofun⟩

instance {μ : Type} [Mode μ] [LawfulMode μ] : Lawful (mode μ) n :=
  lawful_written _ Mode.ofText_text

instance : Lawful ipAddress n where
  readable a := Datum.readable_text n _
  decode_encode {ν src embed} hsrc a := by
    have htext := hsrc.want_text "IP address" (toString a)
    have hread := IpAddress.ofString?_toString a
    unfold ipAddress
    simp only [htext, hread, bind, Except.bind]

instance : NeverNull ipAddress := ⟨nofun⟩

/-! ### Lists and options -/

/-- Items are decoded one by one. -/
theorem decodeItems_encode [Lawful c n] {ν : Type} {src : Source ν} {embed : Datum → ν}
    (hsrc : src.Carries embed) (xs : List τ) :
    decodeItems c src ((xs.map c.encode).map embed) = .ok xs := by
  induction xs with
  | nil => rfl
  | cons x xs ih =>
    have hx := Lawful.decode_encode (c := c) (n := n) hsrc x
    simp only [List.map_cons, decodeItems, hx, ih]
    rfl

instance [Lawful c n] : Lawful (list c) (n + 1) where
  readable xs := by
    intro d hd
    obtain ⟨x, -, rfl⟩ := List.mem_map.mp hd
    exact Lawful.readable x
  decode_encode {ν src embed} hsrc xs := by
    show (do
      let items ← src.want src.items? "a sequence" (embed (.list (xs.map c.encode)))
      decodeItems c src items) = _
    rw [Source.want_of_some _ (hsrc.items _)]
    exact decodeItems_encode (n := n) hsrc xs

instance : NeverNull (list c) := ⟨nofun⟩

instance : Lawful bytes (n + 1) :=
  inferInstanceAs (Lawful (list byte) (n + 1))

instance : NeverNull bytes := ⟨nofun⟩

/-- Nothing and something are told apart, since null says nothing. -/
instance [Lawful c n] [NeverNull c] : Lawful (option c) n where
  readable x? := by
    cases x? with
    | none => exact Datum.readable_null n
    | some x => exact Lawful.readable (c := c) x
  decode_encode {ν src embed} hsrc x? := by
    cases x? with
    | none =>
      show (do if ← src.isPresent (embed .null) then _ else _) = _
      rw [hsrc.absent]
      rfl
    | some x =>
      show (do
        if ← src.isPresent (embed (c.encode x)) then
          return some (← c.decode src (embed (c.encode x)))
        else return none) = _
      rw [hsrc.present _ (NeverNull.encode_ne_null x),
        Lawful.decode_encode (c := c) (n := n) hsrc x]
      rfl

end Codec

end Provisioning
