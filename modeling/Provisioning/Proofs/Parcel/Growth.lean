import Provisioning.Proofs.Hop
import Provisioning.Proofs.Json.Grammar
import Provisioning.Proofs.Json.Members
import Provisioning.Proofs.Parcel.Schema

/-! # Growth of the stable form

    Later versions of the stable form may have more members, and earlier ones had fewer. What a
    reader makes of them is known for each object that is read by an open schema: the parcel as a
    whole and the four kinds of its parts. In the text of a parcel such an object stands in a frame.
    From what is in the frame the reader makes the part and puts it in its place, so whatever may be
    done to an object alone may be done to it where it stands.
-/

namespace Provisioning

/-! ### Frames -/

/-- A frame around a value: the outer reader succeeds if the inner one does, and puts what this has
read in its place. Readers of parts that may be absent take null for nothing, so there is none in
the frame. -/
structure Frame {ρ σ : Type} (inner : Json → Except DecodeError ρ)
    (outer : Json → Except DecodeError σ) (around : Json → Json) (put : ρ → σ) : Prop where
  ne_null : ∀ v, v ≠ .null → around v ≠ .null
  ok_iff : ∀ v, v ≠ .null → ∀ y, outer (around v) = .ok y ↔ ∃ x, inner v = .ok x ∧ put x = y

namespace Frame

variable {ρ σ τ : Type} {inner : Json → Except DecodeError ρ}
  {outer : Json → Except DecodeError σ} {around : Json → Json} {put : ρ → σ}

/-- No frame at all. -/
theorem refl : Frame inner inner id id := by
  refine ⟨fun _ hv => hv, ?_⟩
  intro v _ y
  simp

/-- A frame in a frame. -/
theorem comp {outer' : Json → Except DecodeError τ} {around' : Json → Json} {put' : σ → τ}
    (h' : Frame outer outer' around' put') (h : Frame inner outer around put) :
    Frame inner outer' (fun v => around' (around v)) (fun x => put' (put x)) := by
  refine ⟨fun v hv => h'.ne_null _ (h.ne_null v hv), ?_⟩
  intro v hv z
  rw [h'.ok_iff _ (h.ne_null v hv)]
  constructor
  · rintro ⟨y, hy, rfl⟩
    obtain ⟨x, hx, rfl⟩ := (h.ok_iff v hv y).mp hy
    exact ⟨x, hx, rfl⟩
  · rintro ⟨x, hx, rfl⟩
    exact ⟨put x, (h.ok_iff v hv _).mpr ⟨x, hx, rfl⟩, rfl⟩

section

variable {tooManyItems : Nat → DecodeError}

/-- A value that may be absent. -/
theorem option (c : Codec ρ) :
    Frame (c.decode (Json.source tooManyItems))
      ((Codec.option c).decode (Json.source tooManyItems)) id some := by
  refine ⟨fun _ hv => hv, ?_⟩
  intro v hv y
  have hpresent : (Json.source tooManyItems).isPresent v = .ok true := by
    cases v with
    | null => exact absurd rfl hv
    | boolean | number | string | array | object | meaningless => rfl
  have hdecode : (Codec.option c).decode (Json.source tooManyItems) v =
      (c.decode (Json.source tooManyItems) v).map some := by
    show (do
      if ← (Json.source tooManyItems).isPresent v then
        return some (← c.decode (Json.source tooManyItems) v)
      else return none) = _
    rw [hpresent]
    rfl
  rw [id, hdecode]
  cases c.decode (Json.source tooManyItems) v with
  | error e => simp [Except.map]
  | ok x => simp [Except.map]

/-- The value of a member of an object that is read by an open schema. -/
theorem member {s : Schema ρ} (h : s.Coherent) (hopen : s.Open) {f : Field ρ}
    (hf : f ∈ s.fields) {a b : List Json.Member} {v₀ : Json} {r : ρ}
    (hread : s.decode (Json.source tooManyItems) (.object (a ++ (some f.name, v₀) :: b)) = .ok r) :
    Frame (f.codec.decode (Json.source tooManyItems)) (s.decode (Json.source tooManyItems))
      (fun v => .object (a ++ (some f.name, v) :: b)) (f.set r) := by
  refine ⟨fun _ _ => nofun, ?_⟩
  intro v _ y
  constructor
  · intro hy
    -- The reader of the member has succeeded, and with what it read there is only one result.
    have hx := Json.decode_member h hopen hf hy
    have hput := Json.decode_replace h hopen hf hx hread
    exact ⟨f.get y, hx, Except.ok.inj (hput.symm.trans hy)⟩
  · rintro ⟨x, hx, rfl⟩
    exact Json.decode_replace h hopen hf hx hread

/-- The value of a member that may be absent. -/
theorem optionalMember {s : Schema σ} (h : s.Coherent) (hopen : s.Open) {name : String}
    {c : Codec ρ} {get : σ → Option ρ} {set : σ → Option ρ → σ}
    (hf : ({ name, codec := .option c, get, set } : Field σ) ∈ s.fields)
    {a b : List Json.Member} {v₀ : Json} (hv₀ : v₀ ≠ .null) {r : σ}
    (hread : s.decode (Json.source tooManyItems) (.object (a ++ (some name, v₀) :: b)) = .ok r) :
    ∃ x, get r = some x ∧ c.decode (Json.source tooManyItems) v₀ = .ok x ∧
      Frame (c.decode (Json.source tooManyItems)) (s.decode (Json.source tooManyItems))
        (fun v => .object (a ++ (some name, v) :: b)) (fun x => set r (some x)) := by
  have hvalue := Json.decode_member h hopen hf hread
  obtain ⟨x, hx, hget⟩ := ((Frame.option c).ok_iff v₀ hv₀ _).mp hvalue
  exact ⟨x, hget.symm, hx, (Frame.member h hopen hf hread).comp (Frame.option c)⟩

end

end Frame

/-! ### Items -/

namespace Codec

variable {τ : Type} {c : Codec τ} {src : Source Json}

/-- Items that are decoded are decoded in front of an item, behind it and at it. -/
theorem decodeItems_append_iff {a b : List Json} {v : Json} {xs : List τ} :
    decodeItems c src (a ++ v :: b) = .ok xs ↔
      ∃ as x bs, decodeItems c src a = .ok as ∧ c.decode src v = .ok x ∧
        decodeItems c src b = .ok bs ∧ as ++ x :: bs = xs := by
  induction a generalizing xs with
  | nil =>
    rw [List.nil_append, decodeItems_cons_iff]
    constructor
    · rintro ⟨x, bs, hx, hbs, rfl⟩
      exact ⟨[], x, bs, rfl, hx, hbs, rfl⟩
    · rintro ⟨as, x, bs, has, hx, hbs, rfl⟩
      obtain rfl := Except.ok.inj has
      exact ⟨x, bs, hx, hbs, rfl⟩
  | cons w a ih =>
    rw [List.cons_append, decodeItems_cons_iff]
    constructor
    · rintro ⟨y, ys, hy, hys, rfl⟩
      obtain ⟨as, x, bs, has, hx, hbs, rfl⟩ := ih.mp hys
      exact ⟨y :: as, x, bs, decodeItems_cons_iff.mpr ⟨y, as, hy, has, rfl⟩, hx, hbs, rfl⟩
    · rintro ⟨_, x, bs, hfront, hx, hbs, rfl⟩
      obtain ⟨y, as, hy, has, rfl⟩ := decodeItems_cons_iff.mp hfront
      exact ⟨y, as ++ x :: bs, hy, ih.mpr ⟨as, x, bs, has, hx, hbs, rfl⟩, rfl⟩

theorem length_of_decodeItems {vs : List Json} {xs : List τ}
    (h : decodeItems c src vs = .ok xs) : xs.length = vs.length := by
  induction vs generalizing xs with
  | nil =>
    obtain rfl := Except.ok.inj h
    rfl
  | cons v vs ih =>
    obtain ⟨x, ys, -, hys, rfl⟩ := decodeItems_cons_iff.mp h
    simp [ih hys]

end Codec

namespace Frame

variable {ρ : Type} {tooManyItems : Nat → DecodeError}

/-- An item of a list. -/
theorem item {c : Codec ρ} {a b : List Json} {v₀ : Json} {xs : List ρ}
    (hread : (Codec.list c).decode (Json.source tooManyItems) (.array (a ++ v₀ :: b)) = .ok xs) :
    ∃ x, xs[a.length]? = some x ∧ c.decode (Json.source tooManyItems) v₀ = .ok x ∧
      Frame (c.decode (Json.source tooManyItems))
        ((Codec.list c).decode (Json.source tooManyItems))
        (fun v => .array (a ++ v :: b)) (xs.set a.length) := by
  have hlist : ∀ vs, (Codec.list c).decode (Json.source tooManyItems) (.array vs) =
      Codec.decodeItems c (Json.source tooManyItems) vs := fun _ => rfl
  rw [hlist] at hread
  obtain ⟨as, x₀, bs, has, hx₀, hbs, rfl⟩ := Codec.decodeItems_append_iff.mp hread
  have hget : (as ++ x₀ :: bs)[a.length]? = some x₀ := by
    rw [← Codec.length_of_decodeItems has]
    simp
  have hset : ∀ x, (as ++ x₀ :: bs).set a.length x = as ++ x :: bs := by
    intro x
    rw [← Codec.length_of_decodeItems has]
    simp
  refine ⟨x₀, hget, hx₀, fun _ _ => nofun, ?_⟩
  intro v _ y
  rw [hlist, Codec.decodeItems_append_iff]
  constructor
  · rintro ⟨as', x, bs', has', hx, hbs', rfl⟩
    obtain rfl := Except.ok.inj (has.symm.trans has')
    obtain rfl := Except.ok.inj (hbs.symm.trans hbs')
    exact ⟨x, hx, hset x⟩
  · rintro ⟨x, hx, rfl⟩
    exact ⟨as, x, bs, has, hx, hbs, (hset x).symm⟩

/-- A scan result that is written as the list of its three members. -/
theorem decode_scanResult_list_iff {ssid bssid v : Json} {r : ScanResultParcel} :
    ScanResultParcel.schema.decode (Json.source tooManyItems) (.array [ssid, bssid, v]) = .ok r ↔
      Codec.text.decode (Json.source tooManyItems) ssid = .ok r.ssid ∧
      (Codec.option .text).decode (Json.source tooManyItems) bssid = .ok r.bssid? ∧
      (Codec.list InformationElementParcel.schema.codec).decode (Json.source tooManyItems) v =
        .ok r.elements := by
  obtain ⟨s', b', es'⟩ := r
  show ScanResultParcel.schema.decodePositions (Json.source tooManyItems) _
    ScanResultParcel.schema.fields 0 [ssid, bssid, v] ScanResultParcel.schema.initial = _ ↔ _
  simp only [ScanResultParcel.schema, Schema.decodePositions, Field.decodeInto]
  cases Codec.text.decode (Json.source tooManyItems) ssid with
  | error e => simp
  | ok s =>
    cases (Codec.option .text).decode (Json.source tooManyItems) bssid with
    | error e => simp
    | ok b =>
      cases (Codec.list InformationElementParcel.schema.codec).decode
        (Json.source tooManyItems) v with
      | error e => simp
      | ok es => simp

/-- The elements of a scan result that is written as the list of its members. -/
theorem elements {ssid bssid v₀ : Json} {r : ScanResultParcel}
    (hread : ScanResultParcel.schema.decode (Json.source tooManyItems)
      (.array [ssid, bssid, v₀]) = .ok r) :
    Frame ((Codec.list InformationElementParcel.schema.codec).decode (Json.source tooManyItems))
      (ScanResultParcel.schema.decode (Json.source tooManyItems))
      (fun v => .array [ssid, bssid, v]) (fun es => { r with elements := es }) := by
  obtain ⟨hssid, hbssid, -⟩ := decode_scanResult_list_iff.mp hread
  refine ⟨fun _ _ => nofun, ?_⟩
  intro v _ y
  constructor
  · intro hy
    obtain ⟨hssid', hbssid', hes⟩ := decode_scanResult_list_iff.mp hy
    obtain ⟨s, b, es⟩ := y
    refine ⟨es, hes, ?_⟩
    rw [Except.ok.inj (hssid.symm.trans hssid'), Except.ok.inj (hbssid.symm.trans hbssid')]
  · rintro ⟨es, hes, rfl⟩
    exact decode_scanResult_list_iff.mpr ⟨hssid, hbssid, hes⟩

end Frame

/-! ### Places -/

/-- A place in a parcel that is read by an open schema. -/
inductive Place
  | parcel
  | initial
  | scan
  | layer2
  /-- The element of the scan result behind `i` others. -/
  | element (i : Nat)

namespace Place

/-- The records that stand at a place. -/
def Record : Place → Type
  | parcel => Parcel
  | initial => InitialParcel
  | scan => ScanResultParcel
  | layer2 => Layer2Parcel
  | element _ => InformationElementParcel

/-- The schema of the records at a place. -/
def schema : (place : Place) → Schema place.Record
  | parcel => Parcel.schema
  | initial => InitialParcel.schema
  | scan => ScanResultParcel.schema
  | layer2 => Layer2Parcel.schema
  | element _ => InformationElementParcel.schema

/-- The element of the scan result behind `i` others. -/
def element? (i : Nat) (p : Parcel) : Option InformationElementParcel :=
  p.scanResult?.bind fun r => r.elements[i]?

/-- The parcel with another element of the scan result behind `i` others. -/
def putElement (i : Nat) (e : InformationElementParcel) (p : Parcel) : Parcel :=
  { p with scanResult? := p.scanResult?.map fun r => { r with elements := r.elements.set i e } }

/-- The record at a place of a parcel, if there is one. -/
def get? : (place : Place) → Parcel → Option place.Record
  | parcel, p => some p
  | initial, p => p.initial?
  | scan, p => p.scanResult?
  | layer2, p => p.layer2?
  | element i, p => element? i p

/-- The parcel with another record at a place. -/
def put : (place : Place) → place.Record → Parcel → Parcel
  | parcel, r, _ => r
  | initial, r, p => { p with initial? := some r }
  | scan, r, p => { p with scanResult? := some r }
  | layer2, r, p => { p with layer2? := some r }
  | element i, e, p => putElement i e p

theorem coherent (place : Place) : place.schema.Coherent :=
  match place with
  | parcel => (inferInstance : Parcel.schema.Lawful 4).toCoherent
  | initial => (inferInstance : InitialParcel.schema.Lawful 1).toCoherent
  | scan => (inferInstance : ScanResultParcel.schema.Lawful 3).toCoherent
  | layer2 => (inferInstance : Layer2Parcel.schema.Lawful 0).toCoherent
  | element _ => (inferInstance : InformationElementParcel.schema.Lawful 1).toCoherent

theorem isOpen (place : Place) : place.schema.Open :=
  match place with
  | parcel => show Parcel.schema.Open from {}
  | initial => show InitialParcel.schema.Open from {}
  | scan => show ScanResultParcel.schema.Open from {}
  | layer2 => show Layer2Parcel.schema.Open from {}
  | element _ => show InformationElementParcel.schema.Open from {}

end Place

/-! ### Parts in the text of a parcel -/

/-- What stands around the value at a place. A scan result may be written as an object or as the
list of its members, and either way its elements are found in it. -/
inductive Surrounds : Place → (Json → Json) → Prop
  | parcel : Surrounds .parcel id
  | initial (a b : List Json.Member) :
    Surrounds .initial fun v => .object (a ++ (some "initialConfig", v) :: b)
  | scan (a b : List Json.Member) :
    Surrounds .scan fun v => .object (a ++ (some "scanResultInfo", v) :: b)
  | layer2 (a b : List Json.Member) :
    Surrounds .layer2 fun v => .object (a ++ (some "layer2Info", v) :: b)
  | element {around : Json → Json} (h : Surrounds .scan around) (a b : List Json.Member)
      (vs ws : List Json) :
    Surrounds (.element vs.length) fun v =>
      around (.object (a ++ (some "informationElements", .array (vs ++ v :: ws)) :: b))
  | listedElement {around : Json → Json} (h : Surrounds .scan around) (ssid bssid : Json)
      (vs ws : List Json) :
    Surrounds (.element vs.length) fun v =>
      around (.array [ssid, bssid, .array (vs ++ v :: ws)])

section

variable {tooManyItems : Nat → DecodeError} {p : Parcel}

/-- A frame around the elements of a scan result holds one around each element. -/
theorem Frame.element {around around' : Json → Json} {q : ScanResultParcel}
    (hq : p.scanResult? = some q)
    (hscan : Frame (ScanResultParcel.schema.decode (Json.source tooManyItems))
      (Parcel.schema.decode (Json.source tooManyItems)) around
      (fun q' => { p with scanResult? := some q' }))
    (helements : Frame
      ((Codec.list InformationElementParcel.schema.codec).decode (Json.source tooManyItems))
      (ScanResultParcel.schema.decode (Json.source tooManyItems)) around'
      (fun es => { q with elements := es }))
    {vs ws : List Json} {v₀ : Json}
    (hread : (Codec.list InformationElementParcel.schema.codec).decode (Json.source tooManyItems)
      (.array (vs ++ v₀ :: ws)) = .ok q.elements) :
    ∃ e, Place.element? vs.length p = some e ∧
      InformationElementParcel.schema.decode (Json.source tooManyItems) v₀ = .ok e ∧
      Frame (InformationElementParcel.schema.decode (Json.source tooManyItems))
        (Parcel.schema.decode (Json.source tooManyItems))
        (fun v => around (around' (.array (vs ++ v :: ws))))
        (fun e => Place.putElement vs.length e p) := by
  obtain ⟨e, hget, he, hitem⟩ := Frame.item hread
  have hput : (fun e => Place.putElement vs.length e p) = fun e =>
      { p with scanResult? := some { q with elements := q.elements.set vs.length e } } := by
    funext e
    unfold Place.putElement
    rw [hq, Option.map_some]
  refine ⟨e, ?_, he, ?_⟩
  · unfold Place.element?
    rw [hq]
    exact hget
  · rw [hput]
    exact hscan.comp (helements.comp hitem)

/-- What stands around a value at a place is a frame, and the value is read as the record that the
parcel has at the place. -/
theorem Surrounds.exists_frame {place : Place} {around : Json → Json}
    (h : Surrounds place around) {v₀ : Json} (hv₀ : v₀ ≠ .null)
    (hread : Parcel.schema.decode (Json.source tooManyItems) (around v₀) = .ok p) :
    ∃ r, place.get? p = some r ∧ place.schema.decode (Json.source tooManyItems) v₀ = .ok r ∧
      Frame (place.schema.decode (Json.source tooManyItems))
        (Parcel.schema.decode (Json.source tooManyItems)) around (fun r => place.put r p) := by
  have hcoherent := Place.parcel.coherent
  have hopen := Place.parcel.isOpen
  -- An element is looked for in a scan result, for which there is a frame by induction.
  induction h generalizing v₀ with
  | parcel => exact ⟨p, rfl, hread, Frame.refl⟩
  | initial a b =>
    have hf : Parcel.schema.field? "initialConfig" = some _ := rfl
    exact Frame.optionalMember hcoherent hopen (Schema.field?_eq_some hf).1 hv₀ hread
  | scan a b =>
    have hf : Parcel.schema.field? "scanResultInfo" = some _ := rfl
    exact Frame.optionalMember hcoherent hopen (Schema.field?_eq_some hf).1 hv₀ hread
  | layer2 a b =>
    have hf : Parcel.schema.field? "layer2Info" = some _ := rfl
    exact Frame.optionalMember hcoherent hopen (Schema.field?_eq_some hf).1 hv₀ hread
  | element _ a b vs ws ih =>
    obtain ⟨q, hq, hdecode, hscan⟩ := ih (Json.object_ne_null _) hread
    have hf : ScanResultParcel.schema.field? "informationElements" = some _ := rfl
    have hf := (Schema.field?_eq_some hf).1
    have helements := Json.decode_member Place.scan.coherent Place.scan.isOpen hf hdecode
    exact Frame.element hq hscan (Frame.member Place.scan.coherent Place.scan.isOpen hf hdecode)
      helements
  | listedElement _ ssid bssid vs ws ih =>
    obtain ⟨q, hq, hdecode, hscan⟩ := ih (Json.array_ne_null _) hread
    have helements := (Frame.decode_scanResult_list_iff.mp hdecode).2.2
    exact Frame.element hq hscan (Frame.elements hdecode) helements

end

/-- What stands around a value at a place holds any value with a text. -/
theorem Surrounds.holdsText {place : Place} {around : Json → Json} (h : Surrounds place around) :
    Json.HoldsText around := by
  induction h with
  | parcel => exact Json.HoldsText.refl
  | initial a b | scan a b | layer2 a b => exact Json.holdsText_member a b _
  | element _ a b vs ws ih =>
    exact ih.comp ((Json.holdsText_member a b _).comp (Json.holdsText_item vs ws))
  | listedElement _ ssid bssid vs ws ih =>
    exact ih.comp ((Json.holdsText_item [ssid, bssid] []).comp (Json.holdsText_item vs ws))

/-! ### Texts -/

/-- There is a text of the value, and every text of it is read as the parcel. -/
def ReadAs (j : Json) (p : Parcel) : Prop :=
  j.HasText ∧ ∀ s, Json.parse? s = some j → Parcel.ofJson s = .ok p

/-- Every text of the value is refused. -/
def Refused (j : Json) : Prop :=
  ∀ s, Json.parse? s = some j → ∃ e, Parcel.ofJson s = .error e ∧ e.kind = .invalidStableData

theorem ofJson_eq {s : String} {j : Json} (hs : Json.parse? s = some j) :
    Parcel.ofJson s =
      (Parcel.schema.decode Json.textSource j).mapError fun e => .ofStableText e.message := by
  have hread : Parcel.schema.codec.ofJson s = Parcel.schema.decode Json.textSource j := by
    unfold Codec.ofJson Json.ofText
    rw [hs]
    rfl
  unfold Parcel.ofJson Codec.ofStableText
  rw [hread]
  cases Parcel.schema.decode Json.textSource j <;> rfl

theorem ofJson_eq_ok_iff {s : String} {j : Json} (hs : Json.parse? s = some j) {p : Parcel} :
    Parcel.ofJson s = .ok p ↔ Parcel.schema.decode Json.textSource j = .ok p := by
  rw [ofJson_eq hs]
  cases Parcel.schema.decode Json.textSource j with
  | error e => simp [Except.mapError]
  | ok p' => simp [Except.mapError]

theorem readAs_of_decode {j : Json} {p : Parcel} (htext : j.HasText)
    (h : Parcel.schema.decode Json.textSource j = .ok p) : ReadAs j p :=
  ⟨htext, fun _ hs => (ofJson_eq_ok_iff hs).mpr h⟩

theorem refused_of_decode {j : Json}
    (h : ∀ p, Parcel.schema.decode Json.textSource j ≠ .ok p) : Refused j := by
  intro s hs
  rw [ofJson_eq hs]
  cases hread : Parcel.schema.decode Json.textSource j with
  | ok p => exact absurd hread (h p)
  | error e => exact ⟨_, rfl, rfl⟩

/-! ### Growth -/

/-- Whether the datum is false, zero, an empty text or list, or nothing at all. -/
def Datum.isZero : Datum → Bool
  | .boolean b => !b
  | .integer i => i == 0
  | .text s => s.isEmpty
  | .list items => items.isEmpty
  | .null => true
  | .record _ => false

/-- What may become of an object at a place, `ms` being its members, `r` the record that they are
read as, and `p` the whole parcel. -/
structure Grows (place : Place) (around : Json → Json) (ms : List Json.Member)
    (r : place.Record) (p : Parcel) : Prop where
  /-- A member of a name that the schema does not have may be inserted anywhere, with any value
  that has a text. -/
  inserted : ∀ a b, ms = a ++ b → ∀ name, name ∉ place.schema.names → ∀ v : Json, v.HasText →
    ReadAs (around (.object (a ++ (some name, v) :: b))) p
  /-- Where a member of the schema is removed the default takes its place. -/
  removed : ∀ f ∈ place.schema.fields, ∀ a v b, ms = a ++ (some f.name, v) :: b →
    ReadAs (around (.object (a ++ b))) (place.put (f.set r (f.get place.schema.initial)) p)
  /-- The members may have any order. -/
  reordered : ∀ ms', ms'.Perm ms → ReadAs (around (.object ms')) p
  /-- No member of the schema may be there twice. -/
  repeated : ∀ f ∈ place.schema.fields, ∀ a v b w c,
    Refused (around (.object (a ++ (some f.name, v) :: (b ++ (some f.name, w) :: c))))

/-- What may become of an object alone may become of it in its frame. -/
theorem Surrounds.grows {place : Place} {around : Json → Json} (h : Surrounds place around)
    {ms : List Json.Member} {p : Parcel} (htext : (around (.object ms)).HasText)
    (hp : Parcel.schema.decode Json.textSource (around (.object ms)) = .ok p) :
    ∃ r, place.get? p = some r ∧ Grows place around ms r p := by
  have hcoherent := place.coherent
  have hopen := place.isOpen
  obtain ⟨r, hget, hr, hframe⟩ := h.exists_frame (Json.object_ne_null ms) hp
  have hok := fun ms' => hframe.ok_iff (.object ms') (Json.object_ne_null ms')
  -- The parcel does not change if the record that is there is put there again.
  have hput : place.put r p = p := by
    obtain ⟨r', hr', hput⟩ := (hok ms p).mp hp
    rwa [Except.ok.inj (hr.symm.trans hr')]
  have htexts : ∀ m ∈ ms, m.2.HasText :=
    Json.hasText_object_iff.mp (h.holdsText.value htext)
  have hread : ∀ ms' r', (∀ m ∈ ms', m.2.HasText) →
      place.schema.decode Json.textSource (.object ms') = .ok r' →
      ReadAs (around (.object ms')) (place.put r' p) := by
    intro ms' r' hms' hr'
    refine readAs_of_decode ?_ ((hok ms' _).mpr ⟨r', hr', rfl⟩)
    exact h.holdsText.other htext (Json.hasText_object_iff.mpr hms')
  refine ⟨r, hget, ?_, ?_, ?_, ?_⟩
  · rintro a b rfl name hname v hv
    obtain ⟨ha, hb⟩ := List.forall_mem_append.mp htexts
    have hinsert := hread _ r (List.forall_mem_append.mpr ⟨ha, List.forall_mem_cons.mpr ⟨hv, hb⟩⟩)
      (Json.decode_insert hcoherent hopen hname v hr)
    rwa [hput] at hinsert
  · rintro f hf a v b rfl
    obtain ⟨ha, hvb⟩ := List.forall_mem_append.mp htexts
    exact hread _ _ (List.forall_mem_append.mpr ⟨ha, (List.forall_mem_cons.mp hvb).2⟩)
      (Json.decode_remove hcoherent hopen hf hr)
  · intro ms' hperm
    have hreorder := hread ms' r (fun m hm => htexts m (hperm.mem_iff.mp hm))
      (Json.decode_perm hcoherent hopen hperm hr)
    rwa [hput] at hreorder
  · intro f hf a v b w c
    refine refused_of_decode ?_
    intro p' hp'
    obtain ⟨r', hr', -⟩ := (hok _ p').mp hp'
    exact Json.decode_repeated hcoherent hopen hf hr'

/-- The defaults are zero. -/
theorem Place.isZero_initial (place : Place) :
    ∀ f ∈ place.schema.fields, (f.codec.encode (f.get place.schema.initial)).isZero = true := by
  refine List.all_eq_true.mp ?_
  cases place <;> rfl

/-- A parcel without the codes of the modes. -/
theorem decode_without_modes {ms : List Json.Member} {p : Parcel}
    (h : Parcel.schema.decode Json.textSource (.object ms) = .ok p) :
    Parcel.schema.decode Json.textSource
      (.object (Json.without "ipv6ProvisioningMode" (Json.without "ipv4ProvisioningMode" ms))) =
        .ok { p with ipv4ModeCode := 0, ipv6ModeCode := 0 } := by
  have hcoherent := Place.parcel.coherent
  have hopen := Place.parcel.isOpen
  have hipv4 : Parcel.schema.field? "ipv4ProvisioningMode" = some _ := rfl
  have hipv6 : Parcel.schema.field? "ipv6ProvisioningMode" = some _ := rfl
  have hfirst := Json.decode_without hcoherent hopen (Schema.field?_eq_some hipv4).1 h
  exact Json.decode_without hcoherent hopen (Schema.field?_eq_some hipv6).1 hfirst

/-- The stable form is open to growth. Into each object of a text that is read as a parcel members
of other names may be inserted, and its members may be given in any order; the text is still read
as the parcel. Where a member is removed the parcel has a zero in its place and is otherwise the
same, and a text with a member twice is refused. So the codes of the modes may be missing, and to a
receiver of a version that does not carry them they do not count. -/
theorem Parcel.open_to_growth {s : String} {p : Parcel} (h : ofJson s = .ok p) :
    (∀ place around ms, Surrounds place around → Json.parse? s = some (around (.object ms)) →
      ∃ r, place.get? p = some r ∧ Grows place around ms r p) ∧
    (∀ place : Place, ∀ f ∈ place.schema.fields,
      (f.codec.encode (f.get place.schema.initial)).isZero = true) ∧
    ∀ ms, Json.parse? s = some (.object ms) →
      ReadAs (.object
        (Json.without "ipv6ProvisioningMode" (Json.without "ipv4ProvisioningMode" ms)))
        { p with ipv4ModeCode := 0, ipv6ModeCode := 0 } ∧
      ∀ (version : UInt32) (k : WireContract), version < k.modesSince →
        toConfiguration { p with ipv4ModeCode := 0, ipv6ModeCode := 0 } version k =
          p.toConfiguration version k := by
  refine ⟨?_, Place.isZero_initial, ?_⟩
  · intro place around ms hsurrounds hs
    exact hsurrounds.grows ⟨s, hs⟩ ((ofJson_eq_ok_iff hs).mp h)
  · intro ms hs
    have hread := (ofJson_eq_ok_iff hs).mp h
    have htexts : ∀ m ∈ ms, m.2.HasText := Json.hasText_object_iff.mp ⟨s, hs⟩
    refine ⟨readAs_of_decode ?_ (decode_without_modes hread), ?_⟩
    · refine Json.hasText_object_iff.mpr ?_
      intro m hm
      exact htexts m (List.mem_filter.mp (List.mem_filter.mp hm).1).1
    · intro version k hlt
      refine toConfiguration_of_not_carriesModes ?_ p 0 0
      simpa [WireContract.carriesModes] using hlt

/-- Inside the only element of a scan result a string that denotes no text is skipped, and without
its payload the element has none. -/
theorem Parcel.open_to_growth_element :
    let p (payload : List UInt8) : Parcel :=
      { empty with scanResult? := some ⟨"net", none, [⟨221, payload⟩]⟩ }
    let id : Json.Member := (some "id", .number (.integer 221))
    let payload : Json.Member := (some "payload", .array [.number (.integer 7)])
    ∃ around, Surrounds (.element 0) around ∧
      Json.parse? (p [7]).toJson = some (around (.object [id, payload])) ∧
      ReadAs (around (.object [id, (some "future", .meaningless), payload])) (p [7]) ∧
      ReadAs (around (.object [id])) (p []) := by
  intro p id payload
  have hread : ofJson (p [7]).toJson = .ok (p [7]) := Codec.ofStableText_toJson schema.codec 5 _
  have hparse : Json.parse? (p [7]).toJson = some (Json.ofDatum (schema.codec.encode (p [7]))) :=
    Codec.parse?_toJson schema.codec 5 _
  let ms := Json.ofMembers (Schema.encodeFields (p [7]) schema.fields)
  have hsurrounds : Surrounds (.element 0) _ := .element (.scan (ms.take 13) (ms.drop 14))
    [(some "ssid", .string "net"), (some "bssid", .null)] [] [] []
  obtain ⟨hplaces, -⟩ := open_to_growth hread
  obtain ⟨r, hget, hgrows⟩ := hplaces _ _ [id, payload] hsurrounds hparse
  obtain rfl : r = ⟨221, [7]⟩ := (Option.some.inj hget).symm
  refine ⟨_, hsurrounds, hparse, ?_, ?_⟩
  · exact hgrows.inserted [id] [payload] rfl "future" (by decide) .meaningless
      Json.spells_halfPair.hasText
  · have hpayload : InformationElementParcel.schema.field? "payload" = some _ := rfl
    exact hgrows.removed _ (Schema.field?_eq_some hpayload).1 [id] _ [] rfl

end Provisioning
