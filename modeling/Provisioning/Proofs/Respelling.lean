import Provisioning.Proofs.Codec
import Provisioning.Proofs.Schema

/-! # Other spellings of texts

    A respelling changes texts character by character or as a whole, but leaves those alone that
    are in ASCII: the texts of addresses and modes among them. If every text in the data of a
    record is respelled, what comes out is the data of another record, the one whose own texts are
    respelled. So whoever rewrites the text of a file rewrites the record in it.
-/

namespace Provisioning

/-- A respelling of texts, which leaves texts in ASCII as they are. -/
class Respelling (f : String → String) : Prop where
  ascii : ∀ s : String, (∀ c ∈ s.toList, c.toNat < 0x80) → f s = s

/-! ### Data -/

namespace Datum

mutual

/-- The datum with every text replaced; names of members stay. -/
def mapTexts (f : String → String) : Datum → Datum
  | .null => .null
  | .boolean b => .boolean b
  | .integer i => .integer i
  | .text s => .text (f s)
  | .list items => .list (mapItems f items)
  | .record members => .record (mapMembers f members)

/-- The items of a list with every text replaced. -/
def mapItems (f : String → String) : List Datum → List Datum
  | [] => []
  | d :: rest => mapTexts f d :: mapItems f rest

/-- The members of a record with every text replaced. -/
def mapMembers (f : String → String) : List (String × Datum) → List (String × Datum)
  | [] => []
  | (name, d) :: rest => (name, mapTexts f d) :: mapMembers f rest

end

variable {f : String → String}

theorem mapItems_eq (ds : List Datum) : mapItems f ds = ds.map (mapTexts f) := by
  induction ds with
  | nil => rw [mapItems, List.map_nil]
  | cons d ds ih => rw [mapItems, ih, List.map_cons]

theorem mapMembers_eq (ms : List (String × Datum)) :
    mapMembers f ms = ms.map fun m => (m.1, m.2.mapTexts f) := by
  induction ms with
  | nil => rw [mapMembers, List.map_nil]
  | cons m ms ih => rw [mapMembers, ih, List.map_cons]

/-- Where nothing changes every text is spelled as it was. -/
theorem HasText.eq_of_mapTexts_eq {d : Datum} {s : String} (hs : d.HasText s)
    (h : d.mapTexts f = d) : f s = s := by
  induction hs with
  | text =>
    rw [mapTexts] at h
    exact Datum.text.inj h
  | item hd _ ih =>
    rw [mapTexts, mapItems_eq] at h
    have hall := List.map_eq_map_iff.mp ((Datum.list.inj h).trans (List.map_id _).symm)
    exact ih (hall _ hd)
  | member hm _ ih =>
    rw [mapTexts, mapMembers_eq] at h
    have hall := List.map_eq_map_iff.mp ((Datum.record.inj h).trans (List.map_id _).symm)
    exact ih (congrArg Prod.snd (hall _ hm))

end Datum

/-! ### Codecs -/

namespace Codec

variable {τ : Type} {c : Codec τ} {f : String → String} {g : τ → τ}

/-- A codec in whose data a respelling changes nothing. -/
class Steady (c : Codec τ) (f : String → String) : Prop where
  mapTexts_encode : ∀ x, (c.encode x).mapTexts f = c.encode x

/-- A codec for whose data a respelling is the change `g` of the values. -/
class Respells (c : Codec τ) (f : String → String) (g : outParam (τ → τ)) : Prop where
  mapTexts_encode : ∀ x, (c.encode x).mapTexts f = c.encode (g x)

/-! ### Scalars -/

instance : Steady boolean f := ⟨fun _ => rfl⟩

instance : Steady int32 f := ⟨fun _ => rfl⟩

instance : Steady byte f := ⟨fun _ => rfl⟩

instance : Respells text f f := ⟨fun _ => rfl⟩

section

variable [Respelling f]

/-- A value that travels as text in ASCII keeps its spelling. -/
theorem steady_written {ε : Type} {print : τ → String} {read : String → Except ε τ}
    (failure : ε → Failure) (hascii : ∀ x, ∀ c ∈ (print x).toList, c.toNat < 0x80) :
    Steady (written print read failure) f where
  mapTexts_encode x := congrArg Datum.text (Respelling.ascii (print x) (hascii x))

instance : Steady ipAddress f where
  mapTexts_encode a :=
    congrArg Datum.text (Respelling.ascii (toString a) a.toNat_lt_of_mem_toString)

instance : Steady linkAddress f :=
  steady_written _ LinkAddress.toNat_lt_of_mem_toString

instance : Steady ipPrefix f :=
  steady_written _ IpPrefix.toNat_lt_of_mem_toString

instance : Steady macAddress f :=
  steady_written _ MacAddress.toNat_lt_of_mem_toString

instance {μ : Type} [Mode μ] [LawfulMode μ] : Steady (mode μ) f :=
  steady_written _ Mode.toNat_lt_of_mem_text

end

/-! ### Lists and options -/

instance [Steady c f] : Steady (list c) f where
  mapTexts_encode xs := by
    show Datum.mapTexts f (.list (xs.map c.encode)) = .list (xs.map c.encode)
    rw [Datum.mapTexts, Datum.mapItems_eq, List.map_map]
    refine congrArg Datum.list (List.map_congr_left ?_)
    intro x _
    exact Steady.mapTexts_encode x

instance : Steady bytes f :=
  inferInstanceAs (Steady (list byte) f)

instance [Steady c f] : Steady (option c) f where
  mapTexts_encode x? := by
    cases x? with
    | none => rfl
    | some x => exact Steady.mapTexts_encode (c := c) x

instance [Respells c f g] : Respells (option c) f (Option.map g) where
  mapTexts_encode x? := by
    cases x? with
    | none => rfl
    | some x => exact Respells.mapTexts_encode (c := c) x

end Codec

/-! ### Records -/

namespace Schema

variable {ρ : Type} {s : Schema ρ} {f : String → String} {g : ρ → ρ}

/-- A schema in whose members a respelling changes nothing. -/
class Steady (s : Schema ρ) (f : String → String) : Prop where
  steady : ∀ m ∈ s.fields, m.codec.Steady f := by
    simp
    and_intros <;> infer_instance

/-- A schema for whose members a respelling is the change `g` of the record; it has no influence
on what is written at all. -/
class Respells (s : Schema ρ) (f : String → String) (g : outParam (ρ → ρ)) : Prop where
  mapTexts_encode : ∀ m ∈ s.fields, ∀ r,
    (m.codec.encode (m.get r)).mapTexts f = m.codec.encode (m.get (g r)) := by
    repeat' first
      | exact List.forall_mem_nil _
      | refine List.forall_mem_cons.mpr ⟨fun _ => Codec.Steady.mapTexts_encode _, ?_⟩
      | refine List.forall_mem_cons.mpr ⟨fun _ => (Codec.Respells.mapTexts_encode _).trans ?_, ?_⟩
        exact rfl
  omits : ∀ m ∈ s.fields, ∀ r, m.omits (m.get (g r)) = m.omits (m.get r) := by
    repeat' first
      | exact List.forall_mem_nil _
      | refine List.forall_mem_cons.mpr ⟨fun _ => rfl, ?_⟩
      | refine List.forall_mem_cons.mpr ⟨fun _ => Option.isNone_map, ?_⟩

instance [h : s.Steady f] : s.codec.Steady f where
  mapTexts_encode r := by
    show Datum.mapTexts f (.record (encodeFields r s.fields)) = .record (encodeFields r s.fields)
    rw [Datum.mapTexts, Datum.mapMembers_eq, encodeFields_eq, List.map_map]
    refine congrArg Datum.record (List.map_congr_left ?_)
    intro m hm
    have hsteady := h.steady m (List.mem_filter.mp hm).1
    exact congrArg (Prod.mk m.name) (hsteady.mapTexts_encode (m.get r))

instance [h : s.Respells f g] : s.codec.Respells f g where
  mapTexts_encode r := by
    have homits : (s.fields.filter fun m => !m.omits (m.get (g r))) =
        s.fields.filter fun m => !m.omits (m.get r) := by
      refine List.filter_congr ?_
      intro m hm
      rw [h.omits m hm]
    show Datum.mapTexts f (.record (encodeFields r s.fields)) =
      .record (encodeFields (g r) s.fields)
    rw [Datum.mapTexts, Datum.mapMembers_eq, encodeFields_eq, encodeFields_eq, List.map_map, homits]
    refine congrArg Datum.record (List.map_congr_left ?_)
    intro m hm
    exact congrArg (Prod.mk m.name) (h.mapTexts_encode m (List.mem_filter.mp hm).1 r)

end Schema

end Provisioning
