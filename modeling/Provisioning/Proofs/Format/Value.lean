import Provisioning.Proofs.Format

/-! # Values follow their formats

    Each codec of single values takes what its format says: the words for truth values, the
    integers of a range in every way of writing them, the texts that a reader takes. A codec of
    lists or of values that may be left out follows its format if the codec of what is inside
    does.
-/

namespace Provisioning

open Yaml (IntegerText coreText? isPresent source)
open Yaml (IsText IsList)

/-! ### YAML values as a source -/

namespace Yaml

theorem source_text?_eq_some_iff {v : Yaml} {s : String} :
    source.text? v = some s ↔ IsText v s := by
  constructor
  · intro h
    cases v with
    | scalar tag? t style =>
      obtain rfl : t = s := Option.some.inj h
      exact .scalar
    | sequence | mapping => cases h
  · rintro ⟨⟩
    rfl

theorem source_items?_eq_some_iff {v : Yaml} {vs : List Yaml} :
    source.items? v = some vs ↔ IsList v vs := by
  constructor
  · intro h
    unfold source at h
    dsimp only at h
    split at h
    · obtain rfl := Option.some.inj h
      exact .sequence
    · obtain rfl := Option.some.inj h
      exact .blank
    · cases h
  · rintro (_ | _) <;> rfl

/-- A list stands for one list of items only. -/
theorem IsList.unique {v : Yaml} {vs ws : List Yaml} (h : IsList v vs) (h' : IsList v ws) :
    vs = ws := by
  rw [← source_items?_eq_some_iff] at h h'
  exact Option.some.inj (h.symm.trans h')

/-- An integer that is wanted from a range of 64 bits is taken however it is written. -/
theorem source_integer_eq_ok_iff {least greatest : Int} {expected : String} {v : Yaml} {i : Int}
    (hleast : -0x8000000000000000 ≤ least) (hgreatest : greatest < 0x8000000000000000) :
    source.integer least greatest expected v = .ok i ↔
      (∃ s, coreText? .integer v = some s ∧ IntegerText s.toList i ∧
        (s.toList.head? = some '-' → least < 0)) ∧ least ≤ i ∧ i ≤ greatest := by
  have hsigned : (Numeral.wordValues (64 - 1) : Int) = 0x8000000000000000 := rfl
  have hunsigned : (Numeral.wordValues 64 : Int) = 0x10000000000000000 := rfl
  -- Of the integers in the range each reader takes those that are written in its way.
  have hread : ∀ s : String, least ≤ i → i ≤ greatest →
      ((if decide (least < 0) then signed? 64 s.toList else unsigned? 64 s.toList) = some i ↔
        IntegerText s.toList i ∧ (s.toList.head? = some '-' → least < 0)) := by
    intro s hlo hhi
    by_cases hneg : least < 0
    · rw [if_pos (by simpa using hneg), signed?_eq_some_iff, hsigned]
      constructor
      · rintro ⟨htext, -⟩
        exact ⟨htext, fun _ => hneg⟩
      · rintro ⟨htext, -⟩
        exact ⟨htext, by omega, by omega⟩
    · rw [if_neg (by simpa using hneg), unsigned?_eq_some_iff, hunsigned]
      constructor
      · rintro ⟨htext, hhead, -⟩
        exact ⟨htext, fun h => absurd h hhead⟩
      · rintro ⟨htext, hhead⟩
        exact ⟨htext, fun h => hneg (hhead h), by omega⟩
  have htake : source.integer? (decide (least < 0)) v = some i ↔
      ∃ s, coreText? .integer v = some s ∧
        (if decide (least < 0) then signed? 64 s.toList else unsigned? 64 s.toList) = some i :=
    Option.bind_eq_some_iff
  have hinteger : source.integer least greatest expected v = .ok i ↔
      source.integer? (decide (least < 0)) v = some i ∧ least ≤ i ∧ i ≤ greatest := by
    unfold Source.integer Source.want
    cases source.integer? (decide (least < 0)) v with
    | none => exact ⟨nofun, nofun⟩
    | some j =>
      show (if least ≤ j ∧ j ≤ greatest then Except.ok j else _) = _ ↔ _
      constructor
      · intro h
        split at h
        · next hrange =>
          obtain rfl := Except.ok.inj h
          exact ⟨rfl, hrange⟩
        · cases h
      · rintro ⟨hsome, hrange⟩
        obtain rfl := Option.some.inj hsome
        rw [if_pos hrange]
  rw [hinteger, htake]
  constructor
  · rintro ⟨⟨s, hs, hi⟩, hlo, hhi⟩
    exact ⟨⟨s, hs, (hread s hlo hhi).mp hi⟩, hlo, hhi⟩
  · rintro ⟨⟨s, hs, hi⟩, hlo, hhi⟩
    exact ⟨⟨s, hs, (hread s hlo hhi).mpr hi⟩, hlo, hhi⟩

end Yaml

/-! ### Lists side by side -/

section

universe u v

variable {α : Type u} {β : Type v} {R : α → β → Prop} {as : List α} {bs : List β}

theorem exists_of_mem_left (h : List.Forall₂ R as bs) {a : α} (ha : a ∈ as) :
    ∃ b ∈ bs, R a b := by
  induction h with
  | nil => cases ha
  | @cons a' b as bs hab _ ih =>
    rcases List.mem_cons.mp ha with rfl | ha
    · exact ⟨b, List.mem_cons_self, hab⟩
    · obtain ⟨b', hb', hab'⟩ := ih ha
      exact ⟨b', List.mem_cons_of_mem _ hb', hab'⟩

theorem exists_of_mem_right (h : List.Forall₂ R as bs) {b : β} (hb : b ∈ bs) :
    ∃ a ∈ as, R a b :=
  exists_of_mem_left h.flip hb

theorem exists_forall₂ (h : ∀ a ∈ as, ∃ b, R a b) : ∃ bs, List.Forall₂ R as bs := by
  induction as with
  | nil => exact ⟨[], .nil⟩
  | cons a as ih =>
    obtain ⟨hb, has⟩ := List.forall_mem_cons.mp h
    obtain ⟨b, hb⟩ := hb
    obtain ⟨bs, hbs⟩ := ih has
    exact ⟨b :: bs, .cons hb hbs⟩

end

namespace Codec

variable {τ : Type} {c : Codec τ} {f : Format τ}

/-! ### Scalars -/

instance : Follows boolean Format.boolean where
  sound {v b} h := by
    have htake : source.boolean? v = some b := Source.want_eq_ok_iff.mp h
    obtain ⟨s, hs, hb⟩ := Option.bind_eq_some_iff.mp htake
    exact ⟨⟨s, b, hs, hb⟩, id, s, hs, hb⟩
  complete {v} h _ := by
    obtain ⟨s, b, hs, hb⟩ := h
    exact ⟨b, Source.want_eq_ok_iff.mpr (Option.bind_eq_some_iff.mpr ⟨s, hs, hb⟩)⟩

/-- A codec that takes the integers of a range follows their format. -/
theorem follows_integer {least greatest : Int} {expected : String} {value : τ → Int}
    {ofInt : Int → τ}
    (hdecode : ∀ v, c.decode source v = (source.integer least greatest expected v).map ofInt)
    (hvalue : ∀ i, least ≤ i → i ≤ greatest → value (ofInt i) = i)
    (hleast : -0x8000000000000000 ≤ least) (hgreatest : greatest < 0x8000000000000000) :
    c.Follows (.integer least greatest value) where
  sound {v x} h := by
    rw [hdecode, map_eq_ok_iff] at h
    obtain ⟨i, hi, rfl⟩ := h
    obtain ⟨⟨s, hs, htext, hsign⟩, hlo, hhi⟩ :=
      (Yaml.source_integer_eq_ok_iff hleast hgreatest).mp hi
    have hsame := hvalue i hlo hhi
    have hsaid : (Format.integer least greatest value).Says v (ofInt i) := by
      refine ⟨s, hs, ?_⟩
      rw [hsame]
      exact htext
    refine ⟨⟨s, i, hs, htext, hsign⟩, ?_, hsaid⟩
    apply Format.not_flawed_of_inRange hsaid
    · rw [hsame]
      exact hlo
    · rw [hsame]
      exact hhi
  complete {v} hshaped hflawed := by
    obtain ⟨s, i, hs, htext, hsign⟩ := hshaped
    have hrange : least ≤ i ∧ i ≤ greatest := by
      apply Classical.not_not.mp
      intro hrange
      exact hflawed ⟨s, i, hs, htext, hrange⟩
    refine ⟨ofInt i, ?_⟩
    rw [hdecode, map_eq_ok_iff]
    exact ⟨i, (Yaml.source_integer_eq_ok_iff hleast hgreatest).mpr ⟨⟨s, hs, htext, hsign⟩, hrange⟩,
      rfl⟩

instance : Follows int32 .int32 := by
  apply follows_integer (fun _ => rfl)
  · intro i hlo hhi
    exact Int32.toInt_ofInt_of_le hlo (by omega)
  · decide
  · decide

instance : Follows uint32 .uint32 := by
  apply follows_integer (fun _ => rfl)
  · intro i hlo hhi
    show ((UInt32.ofNat i.toNat).toNat : Int) = i
    rw [UInt32.toNat_ofNat_of_lt' (by show _ < 2 ^ 32; omega)]
    omega
  · decide
  · decide

instance : Follows byte .byte := by
  apply follows_integer (fun _ => rfl)
  · intro i hlo hhi
    show ((UInt8.ofNat i.toNat).toNat : Int) = i
    rw [UInt8.toNat_ofNat_of_lt' (by show _ < 2 ^ 8; omega)]
    omega
  · decide
  · decide

/-- A codec that takes the texts that a reader takes follows their format. -/
theorem follows_written {read? : String → Option τ} {Spells : String → τ → Prop}
    (hdecode : ∀ v x, c.decode source v = .ok x ↔ ∃ s, source.text? v = some s ∧ read? s = some x)
    (hspells : ∀ s x, read? s = some x → Spells s x) : c.Follows (.written read? Spells) where
  sound {v x} h := by
    obtain ⟨s, hs, hread⟩ := (hdecode v x).mp h
    rw [Yaml.source_text?_eq_some_iff] at hs
    refine ⟨⟨s, hs⟩, ?_, s, hs, hspells s x hread⟩
    rintro ⟨t, ht, hrefused⟩
    -- A scalar has one text only.
    cases hs
    cases ht
    rw [hread] at hrefused
    cases hrefused
  complete {v} hshaped hflawed := by
    obtain ⟨s, hs⟩ := hshaped
    cases hread : read? s with
    | none => exact absurd ⟨s, hs, hread⟩ hflawed
    | some x => exact ⟨x, (hdecode v x).mpr ⟨s, Yaml.source_text?_eq_some_iff.mpr hs, hread⟩⟩

instance : Follows text .text := by
  apply follows_written
  · intro v x
    show source.want source.text? "a string" v = .ok x ↔ _
    rw [Source.want_eq_ok_iff]
    simp
  · intro s x h
    exact (Option.some.inj h).symm

/-- A codec of values that travel as text follows the format of its reader. -/
theorem follows_written_of_read {ε : Type} {print : τ → String} {read : String → Except ε τ}
    {failure : ε → Failure} {Spells : String → τ → Prop}
    (hspells : ∀ s x, read s = .ok x → Spells s x) :
    (Codec.written print read failure).Follows
      (.written (fun s => (read s).toOption) Spells) := by
  apply follows_written
  · intro v x
    rw [decode_written_eq_ok_iff]
    simp only [toOption_eq_some_iff]
  · intro s x h
    exact hspells s x (toOption_eq_some_iff.mp h)

instance : Follows ipAddress .ipAddress := by
  apply follows_written
  · intro v x
    have hread : ∀ s, (match IpAddress.ofString? s with
        | some a => Except.ok a
        | none => .error DecodeError.badIpAddress) = .ok x ↔ IpAddress.ofString? s = some x := by
      intro s
      cases IpAddress.ofString? s with
      | none => exact ⟨nofun, nofun⟩
      | some a => exact ⟨fun h => congrArg some (Except.ok.inj h),
          fun h => congrArg Except.ok (Option.some.inj h)⟩
    show (source.want source.text? "IP address" v >>= _) = .ok x ↔ _
    rw [bind_eq_ok_iff]
    exact exists_congr fun s => and_congr Source.want_eq_ok_iff (hread s)
  · intro s x h
    exact h

instance : Follows linkAddress .linkAddress := by
  apply follows_written_of_read
  intro s x h
  unfold LinkAddress.ofString at h
  cases hread : readSlash s with
  | error e =>
    rw [hread] at h
    cases h
  | ok parts =>
    rw [hread] at h
    have hmake : LinkAddress.make parts.1 parts.2 = .ok x := h
    unfold LinkAddress.make at hmake
    split at hmake
    · obtain rfl := Except.ok.inj hmake
      rfl
    · cases hmake

instance : Follows ipPrefix .ipPrefix := by
  apply follows_written_of_read
  intro s p h
  unfold IpPrefix.ofString at h
  cases hread : readSlash s with
  | error e =>
    rw [hread] at h
    cases h
  | ok parts =>
    rw [hread] at h
    have hmake : IpPrefix.make parts.1 parts.2 = .ok p := h
    unfold IpPrefix.make at hmake
    split at hmake
    · next hlength =>
      obtain rfl := Except.ok.inj hmake
      exact ⟨parts.1, rfl, IpAddress.isLeading_mask hlength⟩
    · cases hmake

instance : Follows macAddress .macAddress := by
  apply follows_written_of_read
  intro s m h
  exact MacAddress.ofString_eq_ok_iff.mp h

instance {μ : Type} [Mode μ] : Follows (mode μ) (.mode μ) := by
  apply follows_written_of_read
  intro s m h
  unfold Mode.ofText at h
  -- What is no name may be the writing of an unknown code.
  split at h
  · next hlookup =>
    obtain rfl := Except.ok.inj h
    exact .inl (Mode.mem_of_lookup hlookup)
  · split at h
    · next c hcode =>
      exact .inr ⟨c, hcode, (Except.ok.inj h).symm⟩
    · cases h

/-! ### Lists and options -/

/-- A list is decoded if its items are, one by one. -/
theorem decodeItems_eq_ok_iff {vs : List Yaml} {xs : List τ} :
    decodeItems c source vs = .ok xs ↔
      List.Forall₂ (fun v x => c.decode source v = .ok x) vs xs := by
  induction vs generalizing xs with
  | nil =>
    rw [List.forall₂_nil_left_iff]
    exact ⟨fun h => (Except.ok.inj h).symm, fun h => congrArg Except.ok h.symm⟩
  | cons v vs ih =>
    rw [List.forall₂_cons_left_iff, decodeItems_cons_iff]
    constructor
    · rintro ⟨x, ys, hx, hys, rfl⟩
      exact ⟨x, ys, hx, ih.mp hys, rfl⟩
    · rintro ⟨x, ys, hx, hys, rfl⟩
      exact ⟨x, ys, hx, ih.mpr hys, rfl⟩

theorem decode_list_eq_ok_iff {v : Yaml} {xs : List τ} :
    (list c).decode source v = .ok xs ↔
      ∃ vs, IsList v vs ∧ List.Forall₂ (fun v x => c.decode source v = .ok x) vs xs := by
  show (source.want source.items? "a sequence" v >>= decodeItems c source) = .ok xs ↔ _
  simp only [bind_eq_ok_iff, Source.want_eq_ok_iff, Yaml.source_items?_eq_some_iff,
    decodeItems_eq_ok_iff]

instance [c.Follows f] : Follows (list c) f.list where
  sound {v xs} h := by
    obtain ⟨vs, hlist, hitems⟩ := decode_list_eq_ok_iff.mp h
    have hsound : ∀ w ∈ vs, f.Shaped w ∧ ¬ f.Flawed w := by
      intro w hw
      obtain ⟨x, -, hx⟩ := exists_of_mem_left hitems hw
      exact ⟨(Follows.sound hx).1, (Follows.sound hx).2.1⟩
    refine ⟨⟨vs, hlist, fun w hw => (hsound w hw).1⟩, ?_, vs, hlist, ?_⟩
    · rintro ⟨ws, hws, w, hw, hflawed⟩
      obtain rfl := hlist.unique hws
      exact (hsound w hw).2 hflawed
    · exact hitems.imp fun _ _ hx => (Follows.sound hx).2.2
  complete {v} hshaped hflawed := by
    obtain ⟨vs, hlist, hitems⟩ := hshaped
    have hdecode : ∀ w ∈ vs, ∃ x, c.decode source w = .ok x := by
      intro w hw
      apply Follows.complete (hitems w hw)
      intro h
      exact hflawed ⟨vs, hlist, w, hw, h⟩
    obtain ⟨xs, hxs⟩ := exists_forall₂ hdecode
    exact ⟨xs, decode_list_eq_ok_iff.mpr ⟨vs, hlist, hxs⟩⟩

instance : Follows bytes (.list .byte) :=
  inferInstanceAs (Follows (list byte) (.list .byte))

theorem decode_option_eq_ok_iff {v : Yaml} {x? : Option τ} :
    (option c).decode source v = .ok x? ↔
      (isPresent v = .ok false ∧ x? = none) ∨
        isPresent v = .ok true ∧ ∃ x, c.decode source v = .ok x ∧ x? = some x := by
  have hdecode : (option c).decode source v = (isPresent v >>= fun present =>
      if present then (do return some (← c.decode source v)) else return none) := rfl
  rw [hdecode, bind_eq_ok_iff]
  constructor
  · rintro ⟨present, hpresent, h⟩
    cases present with
    | false => exact .inl ⟨hpresent, (Except.ok.inj h).symm⟩
    | true =>
      obtain ⟨x, hx, h⟩ := bind_eq_ok_iff.mp h
      exact .inr ⟨hpresent, x, hx, (Except.ok.inj h).symm⟩
  · rintro (⟨hpresent, rfl⟩ | ⟨hpresent, x, hx, rfl⟩)
    · exact ⟨false, hpresent, rfl⟩
    · exact ⟨true, hpresent, bind_eq_ok_iff.mpr ⟨x, hx, rfl⟩⟩

instance [c.Follows f] : Follows (option c) f.option where
  sound {v x?} h := by
    rcases decode_option_eq_ok_iff.mp h with ⟨hpresent, rfl⟩ | ⟨hpresent, x, hx, rfl⟩
    · refine ⟨.inl hpresent, ?_, hpresent⟩
      -- In what is not present nothing can be wrong.
      rintro ⟨hpresent', -⟩
      rw [hpresent] at hpresent'
      cases hpresent'
    · obtain ⟨hshaped, hflawed, hsaid⟩ := Follows.sound (f := f) hx
      refine ⟨.inr ⟨hpresent, hshaped⟩, ?_, hpresent, hsaid⟩
      rintro ⟨-, h⟩
      exact hflawed h
  complete {v} hshaped hflawed := by
    rcases hshaped with hpresent | ⟨hpresent, hshaped⟩
    · exact ⟨none, decode_option_eq_ok_iff.mpr (.inl ⟨hpresent, rfl⟩)⟩
    · have hinside : ¬ f.Flawed v := fun h => hflawed ⟨hpresent, h⟩
      obtain ⟨x, hx⟩ := Follows.complete (c := c) hshaped hinside
      exact ⟨some x, decode_option_eq_ok_iff.mpr (.inr ⟨hpresent, x, hx, rfl⟩)⟩

end Codec

end Provisioning
