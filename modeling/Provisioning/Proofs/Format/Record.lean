import Provisioning.Proofs.Format.Value

/-! # Records follow their formats

    A schema follows a table of entries if both list the same members: by name, with a codec that
    follows the format of the entry, required if the entry has no default, and else with this
    default. From a mapping such a schema decodes a record exactly if nothing is wrong with the
    members, and the record is the one that the mapping describes.
-/

namespace Provisioning

open Yaml (IsText IsRecord memberName source)

/-! ### Members of mappings -/

namespace Yaml

/-- The text of a key, if it is a scalar. -/
def keyText : Yaml → String
  | .scalar _ s _ => s
  | _ => ""

/-- The members of a mapping by name. -/
def named (ms : List (Yaml × Yaml)) : List (String × Yaml) :=
  ms.map fun m => (keyText m.1, m.2)

/-- Whether all keys of a mapping are texts. -/
def AllNamed (ms : List (Yaml × Yaml)) : Prop :=
  ∀ m ∈ ms, ∃ name, IsText m.1 name

theorem memberName_eq_ok_iff {key : Yaml} {name : String} :
    memberName key = .ok name ↔ IsText key name := by
  constructor
  · intro h
    cases key with
    | scalar tag? s style =>
      obtain rfl : s = name := Except.ok.inj h
      exact .scalar
    | sequence | mapping => cases h
  · rintro ⟨⟩
    rfl

theorem IsText.keyText_eq {key : Yaml} {name : String} (h : IsText key name) :
    keyText key = name := by
  cases h
  rfl

/-- A mapping stands for one list of members only. -/
theorem IsRecord.unique {v : Yaml} {ms ms' : List (Yaml × Yaml)} (h : IsRecord v ms)
    (h' : IsRecord v ms') : ms = ms' := by
  cases h <;> cases h' <;> rfl

theorem source_members?_eq_some_iff {v : Yaml} {raw : List (Except DecodeError String × Yaml)} :
    source.members? v = some raw ↔
      ∃ ms, IsRecord v ms ∧ raw = ms.map fun m => (memberName m.1, m.2) := by
  constructor
  · intro h
    unfold source at h
    dsimp only at h
    split at h
    · obtain rfl := Option.some.inj h
      exact ⟨_, .mapping, rfl⟩
    · obtain rfl := Option.some.inj h
      exact ⟨[], .blank, rfl⟩
    · cases h
  · rintro ⟨ms, _ | _, rfl⟩ <;> rfl

/-- Where all keys are texts the members have names. -/
theorem map_memberName {ms : List (Yaml × Yaml)} (h : AllNamed ms) :
    (ms.map fun m => (memberName m.1, m.2)) = (named ms).map fun m => (.ok m.1, m.2) := by
  unfold named
  rw [List.map_map]
  apply List.map_congr_left
  intro m hm
  obtain ⟨name, hname⟩ := h m hm
  rw [memberName_eq_ok_iff.mpr hname]
  show _ = (Except.ok (keyText m.1), m.2)
  rw [hname.keyText_eq]

theorem mem_named_iff {ms : List (Yaml × Yaml)} (h : AllNamed ms) {name : String} {v : Yaml} :
    (name, v) ∈ named ms ↔ ∃ key, (key, v) ∈ ms ∧ IsText key name := by
  unfold named
  rw [List.mem_map]
  constructor
  · rintro ⟨⟨key, w⟩, hm, heq⟩
    obtain ⟨rfl, rfl⟩ := Prod.mk.inj heq
    obtain ⟨name, hname⟩ := h _ hm
    exact ⟨key, hm, hname.keyText_eq ▸ hname⟩
  · rintro ⟨key, hm, hname⟩
    exact ⟨(key, v), hm, by rw [hname.keyText_eq]⟩

theorem mem_names_iff {ms : List (Yaml × Yaml)} (h : AllNamed ms) {name : String} :
    name ∈ (named ms).map Prod.fst ↔ ∃ m ∈ ms, IsText m.1 name := by
  rw [List.mem_map]
  constructor
  · rintro ⟨⟨name, v⟩, hm, rfl⟩
    obtain ⟨key, hm, hname⟩ := (mem_named_iff h).mp hm
    exact ⟨(key, v), hm, hname⟩
  · rintro ⟨⟨key, v⟩, hm, hname⟩
    exact ⟨(name, v), (mem_named_iff h).mpr ⟨key, hm, hname⟩, rfl⟩

variable {ρ : Type} {s : Schema ρ}

/-- A record is decoded from a mapping of which all keys are texts and that describes it, nothing
required missing. -/
theorem decode_eq_ok_iff (h : s.Coherent) {v : Yaml} {r : ρ} :
    s.decode source v = .ok r ↔
      ∃ ms, IsRecord v ms ∧ AllNamed ms ∧ s.Describes source (named ms) s.initial r ∧
        ∀ f ∈ s.fields, f.required = true → ∃ m ∈ ms, IsText m.1 f.name := by
  constructor
  · intro hdecode
    cases hmembers : source.members? v with
    | none =>
      -- Nothing but a mapping is taken for a record.
      unfold Schema.decode at hdecode
      rw [hmembers] at hdecode
      cases hdecode
    | some raw =>
      obtain ⟨members, hraw, hd, hrequired⟩ := (Schema.decode_eq_ok_iff h hmembers).mp hdecode
      obtain ⟨ms, hms, rfl⟩ := source_members?_eq_some_iff.mp hmembers
      have hall : AllNamed ms := by
        intro m hm
        have hmem : (memberName m.1, m.2) ∈ members.map fun m => (.ok m.1, m.2) :=
          hraw ▸ List.mem_map.mpr ⟨m, hm, rfl⟩
        obtain ⟨m', -, heq⟩ := List.mem_map.mp hmem
        exact ⟨m'.1, memberName_eq_ok_iff.mp (Prod.mk.inj heq).1.symm⟩
      rw [map_memberName hall] at hraw
      obtain rfl := Schema.eq_of_map_ok_eq hraw
      refine ⟨ms, hms, hall, hd, ?_⟩
      intro f hf hmust
      exact (mem_names_iff hall).mp (hrequired f hf hmust)
  · rintro ⟨ms, hms, hall, hd, hrequired⟩
    have hmembers : source.members? v = some ((named ms).map fun m => (.ok m.1, m.2)) :=
      source_members?_eq_some_iff.mpr ⟨ms, hms, (map_memberName hall).symm⟩
    apply Schema.decode_of_describes h hmembers hd
    intro f hf hmust
    exact (mem_names_iff hall).mpr (hrequired f hf hmust)

end Yaml

/-! ### Tables -/

/-- A member of a schema and its entry in a table. -/
inductive Field.Fits {ρ : Type} (initial : ρ) : Field ρ → Entry ρ → Prop
  | intro {name : String} {τ : Type} {codec : Codec τ} {get : ρ → τ} {set : ρ → τ → ρ}
    {required : Bool} {omits : τ → Bool} {format : Format τ} {default? : Option τ} :
    codec.Follows format → required = default?.isNone →
      (∀ x, default? = some x → get initial = x) →
      Fits initial { name, codec, get, set, required, omits } { name, format, get, default? }

/-- A closed schema whose members are those of a table. -/
class Schema.Follows {ρ : Type} (s : Schema ρ) (entries : List (Entry ρ)) : Prop where
  coherent : s.Coherent
  closed_eq : s.closed = true := by rfl
  fits : List.Forall₂ (Field.Fits s.initial) s.fields entries := by
    repeat' first
      | exact List.Forall₂.nil
      | refine List.Forall₂.cons (.intro inferInstance rfl ?_) ?_
      | rintro _ ⟨⟩ <;> rfl

section

variable {ρ : Type} {initial r : ρ} {f : Field ρ} {e : Entry ρ}

theorem Field.Fits.name_eq (h : f.Fits initial e) : f.name = e.name := by
  cases h
  rfl

theorem Field.Fits.required_iff (h : f.Fits initial e) :
    f.required = true ↔ e.default? = none := by
  cases h with
  | intro _ hrequired _ =>
    rw [hrequired]
    exact Option.isNone_iff_eq_none

theorem Field.Fits.default?_eq (h : f.Fits initial e) (hoptional : e.default? ≠ none)
    (hkept : f.get initial = f.get r) : e.default? = some (e.get r) := by
  cases h with
  | @intro _ _ _ _ _ _ _ _ default? _ _ hdefault =>
    cases default? with
    | none => exact absurd rfl hoptional
    | some x => exact congrArg some ((hdefault x rfl).symm.trans hkept)

theorem Field.Fits.sound (h : f.Fits initial e) {v : Yaml}
    (hdecode : f.codec.decode source v = .ok (f.get r)) :
    e.format.Shaped v ∧ ¬ e.format.Flawed v ∧ e.format.Says v (e.get r) := by
  cases h with
  | intro hfollows _ _ => exact hfollows.sound hdecode

theorem Field.Fits.complete (h : f.Fits initial e) {v : Yaml} (hshaped : e.format.Shaped v)
    (hflawed : ¬ e.format.Flawed v) : ∃ x, f.codec.decode source v = .ok x := by
  cases h with
  | intro hfollows _ _ => exact hfollows.complete hshaped hflawed

end

/-! ### Decoding -/

namespace Schema

variable {ρ : Type} {s : Schema ρ} {entries : List (Entry ρ)}

/-- The names of the schema in a mapping are different if no two keys are the same one. -/
theorem nodup_knownNames_iff {ms : List (Yaml × Yaml)} (hall : Yaml.AllNamed ms) :
    (s.knownNames (Yaml.named ms)).Nodup ↔
      ∀ m m', [m, m'].Sublist ms → ∀ name, (s.field? name).isSome = true → IsText m.1 name →
        ¬ IsText m'.1 name := by
  have hnames : s.knownNames (Yaml.named ms) =
      (ms.map fun m => Yaml.keyText m.1).filter fun name => (s.field? name).isSome := by
    unfold knownNames Yaml.named
    rw [List.map_map]
    rfl
  rw [hnames]
  constructor
  · intro hnodup m m' hsub name hname hm hm'
    have hkeys := (hsub.map fun m => Yaml.keyText m.1).filter fun name => (s.field? name).isSome
    have hkept : [name, name].filter (fun name => (s.field? name).isSome) = [name, name] := by
      simp [hname]
    rw [List.map_cons, List.map_singleton, hm.keyText_eq, hm'.keyText_eq, hkept] at hkeys
    exact (List.nodup_cons.mp (hnodup.sublist hkeys)).1 List.mem_cons_self
  · intro hdistinct
    apply List.pairwise_iff_forall_sublist.mpr
    rintro name name' hsub rfl
    have hname := (List.mem_filter.mp (hsub.subset List.mem_cons_self)).2
    -- The two names come from two members in this order.
    obtain ⟨ms', hms', heq⟩ := List.sublist_map_iff.mp (hsub.trans List.filter_sublist)
    obtain ⟨m, rest, rfl, hm, hrest⟩ := List.map_eq_cons_iff.mp heq.symm
    obtain ⟨m', rest', rfl, hm', hrest'⟩ := List.map_eq_cons_iff.mp hrest
    obtain rfl := List.map_eq_nil_iff.mp hrest'
    obtain ⟨n, hn⟩ := hall m (hms'.subset (by simp))
    obtain ⟨n', hn'⟩ := hall m' (hms'.subset (by simp))
    rw [hn.keyText_eq] at hm
    rw [hn'.keyText_eq] at hm'
    exact hdistinct m m' hms' name hname (hm ▸ hn) (hm' ▸ hn')

section

variable [h : s.Follows entries] {ms : List (Yaml × Yaml)} {r : ρ}

/-- What is written under a name of the table is decoded to the member of the record. -/
theorem Describes.sound (hall : Yaml.AllNamed ms)
    (hd : s.Describes source (Yaml.named ms) s.initial r) {e : Entry ρ} (he : e ∈ entries)
    {m : Yaml × Yaml} (hm : m ∈ ms) (hname : IsText m.1 e.name) :
    e.format.Shaped m.2 ∧ ¬ e.format.Flawed m.2 ∧ e.format.Says m.2 (e.get r) := by
  obtain ⟨f, hf, hfits⟩ := exists_of_mem_right h.fits he
  have hnamed : (f.name, m.2) ∈ Yaml.named ms :=
    (Yaml.mem_named_iff hall).mpr ⟨m.1, hm, hfits.name_eq ▸ hname⟩
  exact hfits.sound (hd.decoded _ hnamed f (h.coherent.field?_name hf))

/-- In members that describe a record nothing is wrong. -/
theorem Describes.not_flawed (hall : Yaml.AllNamed ms)
    (hd : s.Describes source (Yaml.named ms) s.initial r)
    (hrequired : ∀ f ∈ s.fields, f.required = true → ∃ m ∈ ms, IsText m.1 f.name) :
    ¬ FlawedMembers entries ms := by
  intro hflawed
  cases hflawed with
  | @unknown m hm hunknown =>
    obtain ⟨name, hname⟩ := hall m hm
    have hnamed : (name, m.2) ∈ Yaml.named ms :=
      (Yaml.mem_named_iff hall).mpr ⟨m.1, hm, hname⟩
    -- The schema is closed, so it has a member of the name, and the table an entry.
    obtain ⟨f, hfound⟩ := Option.isSome_iff_exists.mp (hd.known h.closed_eq _ hnamed)
    obtain ⟨hf, rfl⟩ := field?_eq_some hfound
    obtain ⟨e, he, hfits⟩ := exists_of_mem_left h.fits hf
    exact hunknown e he (hfits.name_eq ▸ hname)
  | @repeated e m m' he hsub hm hm' =>
    obtain ⟨f, hf, hfits⟩ := exists_of_mem_right h.fits he
    have hsome : (s.field? e.name).isSome = true := by
      rw [← hfits.name_eq, h.coherent.field?_name hf]
      rfl
    exact (nodup_knownNames_iff hall).mp hd.nodup m m' hsub e.name hsome hm hm'
  | @lacking e he hnone hnot =>
    obtain ⟨f, hf, hfits⟩ := exists_of_mem_right h.fits he
    obtain ⟨m, hm, hname⟩ := hrequired f hf (hfits.required_iff.mpr hnone)
    exact hnot m hm (hfits.name_eq ▸ hname)
  | @inside e m he hm hname hinside =>
    exact (hd.sound hall he hm hname).2.1 hinside

/-- A record that is described has the members that are written, and else the defaults. -/
theorem Describes.saysMembers (hall : Yaml.AllNamed ms)
    (hd : s.Describes source (Yaml.named ms) s.initial r)
    (hrequired : ∀ f ∈ s.fields, f.required = true → ∃ m ∈ ms, IsText m.1 f.name) :
    SaysMembers entries ms r := by
  constructor
  · intro e he m hm hname
    exact (hd.sound hall he hm hname).2.2
  · intro e he hnot
    obtain ⟨f, hf, hfits⟩ := exists_of_mem_right h.fits he
    have hunnamed : ∀ m ∈ ms, ¬ IsText m.1 f.name := by
      rw [hfits.name_eq]
      exact hnot
    apply hfits.default?_eq
    · intro hnone
      obtain ⟨m, hm, hname⟩ := hrequired f hf (hfits.required_iff.mpr hnone)
      exact hunnamed m hm hname
    · apply hd.kept f hf
      intro hmem
      obtain ⟨m, hm, hname⟩ := (Yaml.mem_names_iff hall).mp hmem
      exact hunnamed m hm hname

/-- Members in which nothing is wrong have names. -/
theorem allNamed_of_not_flawed (hsound : ¬ FlawedMembers entries ms) :
    ∀ m ∈ ms, ∃ e ∈ entries, IsText m.1 e.name := by
  intro m hm
  apply Classical.not_not.mp
  intro hnone
  exact hsound (.unknown hm fun e he hname => hnone ⟨e, he, hname⟩)

/-- Members of the right shape in which nothing is wrong describe a record. -/
theorem exists_describes_of_not_flawed (hall : Yaml.AllNamed ms)
    (hsound : ¬ FlawedMembers entries ms)
    (hshaped : ∀ e ∈ entries, ∀ m ∈ ms, IsText m.1 e.name → e.format.Shaped m.2) :
    ∃ r, s.Describes source (Yaml.named ms) s.initial r := by
  apply exists_describes h.coherent
  · rw [nodup_knownNames_iff hall]
    intro m m' hsub name hsome hm hm'
    obtain ⟨f, hfound⟩ := Option.isSome_iff_exists.mp hsome
    obtain ⟨hf, rfl⟩ := field?_eq_some hfound
    obtain ⟨e, he, hfits⟩ := exists_of_mem_left h.fits hf
    rw [hfits.name_eq] at hm hm'
    exact hsound (.repeated he hsub hm hm')
  · rintro - ⟨name, w⟩ hnamed
    obtain ⟨key, hm, hname⟩ := (Yaml.mem_named_iff hall).mp hnamed
    obtain ⟨e, he, hname'⟩ := allNamed_of_not_flawed hsound _ hm
    obtain ⟨f, hf, hfits⟩ := exists_of_mem_right h.fits he
    have hsame : name = f.name := by
      rw [hfits.name_eq, ← hname.keyText_eq, ← hname'.keyText_eq]
    show (s.field? name).isSome = true
    rw [hsame, h.coherent.field?_name hf]
    rfl
  · rintro ⟨name, w⟩ hnamed f hfound
    obtain ⟨hf, rfl⟩ := field?_eq_some hfound
    obtain ⟨key, hm, hname⟩ := (Yaml.mem_named_iff hall).mp hnamed
    obtain ⟨e, he, hfits⟩ := exists_of_mem_left h.fits hf
    rw [hfits.name_eq] at hname
    apply hfits.complete (hshaped e he _ hm hname)
    intro hinside
    exact hsound (.inside he hm hname hinside)

instance : s.codec.Follows (.record entries) where
  sound {v r} hdecode := by
    obtain ⟨ms, hms, hall, hd, hrequired⟩ := (Yaml.decode_eq_ok_iff h.coherent).mp hdecode
    refine ⟨⟨ms, hms, ?_⟩, ?_, ms, hms, hd.saysMembers hall hrequired⟩
    · intro e he m hm hname
      exact (hd.sound hall he hm hname).1
    · rintro ⟨ms', hms', hflawed⟩
      obtain rfl := hms.unique hms'
      exact hd.not_flawed hall hrequired hflawed
  complete {v} hshaped hflawed := by
    obtain ⟨ms, hms, hvalues⟩ := hshaped
    have hsound : ¬ FlawedMembers entries ms := fun hfault => hflawed ⟨ms, hms, hfault⟩
    have hall : Yaml.AllNamed ms := by
      intro m hm
      -- A key of an entry is a text.
      obtain ⟨e, -, hname⟩ := allNamed_of_not_flawed hsound m hm
      exact ⟨e.name, hname⟩
    obtain ⟨r, hd⟩ : ∃ r, s.Describes source (Yaml.named ms) s.initial r :=
      exists_describes_of_not_flawed hall hsound hvalues
    refine ⟨r, (Yaml.decode_eq_ok_iff h.coherent).mpr ⟨ms, hms, hall, hd, ?_⟩⟩
    intro f hf hrequired
    obtain ⟨e, he, hfits⟩ := exists_of_mem_left h.fits hf
    rw [hfits.name_eq]
    -- The entry of a required member has no default, so it is written.
    apply Classical.not_not.mp
    intro hnone
    exact hsound (.lacking he (hfits.required_iff.mp hrequired)
      fun m hm hname => hnone ⟨m, hm, hname⟩)

end

end Schema

end Provisioning
