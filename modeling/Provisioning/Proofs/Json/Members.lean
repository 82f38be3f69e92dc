import Provisioning.Json.Source
import Provisioning.Proofs.Schema

/-! # Objects with other members

    What an open schema decodes from an object depends on the values that stand under its own
    names and on nothing else: neither on the order of the members, nor on members of other names,
    whatever their values are. Where one of its members is missing the record has the default, and
    where there is one twice the object is refused.
-/

namespace Provisioning

variable {ρ : Type}

namespace Schema

/-- A schema that skips members of other names and requires none of its own. -/
structure Open (s : Schema ρ) : Prop where
  closed_eq : s.closed = false := by rfl
  optional : ∀ f ∈ s.fields, f.required = false := by
    repeat' first
      | exact List.forall_mem_nil _
      | refine List.forall_mem_cons.mpr ⟨rfl, ?_⟩

/-! ### Setting members -/

section

variable {s : Schema ρ} (h : s.Coherent) {f : Field ρ} (hf : f ∈ s.fields)

include h hf

theorem Coherent.set_get (r : ρ) : f.set r (f.get r) = r := by
  refine h.complete _ _ ?_
  intro g hg
  by_cases hname : g.name = f.name
  · obtain rfl := h.eq_of_name_eq hg hf hname
    exact h.get_set g hg r _
  · exact h.get_set_of_ne hg hf hname r _

theorem Coherent.set_set (r : ρ) (x y : f.Value) : f.set (f.set r x) y = f.set r y := by
  refine h.complete _ _ ?_
  intro g hg
  by_cases hname : g.name = f.name
  · obtain rfl := h.eq_of_name_eq hg hf hname
    rw [h.get_set g hg, h.get_set g hg]
  · rw [h.get_set_of_ne hg hf hname, h.get_set_of_ne hg hf hname, h.get_set_of_ne hg hf hname]

end

/-! ### Descriptions -/

section

variable {ν : Type} {s : Schema ρ} {src : Source ν} {members : List (String × ν)} {base r : ρ}
  {m : String × ν} {f : Field ρ}

/-- The order of named values does not matter. -/
theorem Describes.perm {members' : List (String × ν)} (hperm : members'.Perm members)
    (hd : s.Describes src members base r) : s.Describes src members' base r := by
  have hnames := hperm.map Prod.fst
  refine ⟨?_, ?_, ?_, ?_⟩
  · exact (hnames.filter _).nodup_iff.mpr hd.nodup
  · intro hclosed m hm
    exact hd.known hclosed m (hperm.mem_iff.mp hm)
  · intro m hm
    exact hd.decoded m (hperm.mem_iff.mp hm)
  · intro f hf hnot
    exact hd.kept f hf fun hmem => hnot (hnames.mem_iff.mpr hmem)

/-- A member that is not named may be set on both sides. -/
theorem Describes.set (h : s.Coherent) (hf : f ∈ s.fields) (hnot : f.name ∉ s.knownNames members)
    (hd : s.Describes src members base r) (x : f.Value) :
    s.Describes src members (f.set base x) (f.set r x) := by
  refine ⟨hd.nodup, hd.known, ?_, ?_⟩
  · intro m hm g hg
    obtain ⟨hgmem, hgname⟩ := field?_eq_some hg
    have hne : g.name ≠ f.name := by
      intro heq
      exact hnot (heq ▸ hgname ▸ mem_knownNames hg hm)
    rw [h.get_set_of_ne hgmem hf hne]
    exact hd.decoded m hm g hg
  · intro g hg hgnot
    by_cases hname : g.name = f.name
    · obtain rfl := h.eq_of_name_eq hg hf hname
      rw [h.get_set g hg, h.get_set g hg]
    · rw [h.get_set_of_ne hg hf hname, h.get_set_of_ne hg hf hname]
      exact hd.kept g hg hgnot

/-- Behind a member of the schema its name does not occur again. -/
theorem Describes.name_not_mem (hd : s.Describes src (m :: members) base r)
    (hm : s.field? m.1 = some f) : f.name ∉ s.knownNames members := by
  have hnodup := hd.nodup
  rw [knownNames_cons_some hm, ← (field?_eq_some hm).2] at hnodup
  exact (List.nodup_cons.mp hnodup).1

/-- Without a member of the schema the record has that of the base. -/
theorem Describes.remove (h : s.Coherent) (hd : s.Describes src (m :: members) base r)
    (hm : s.field? m.1 = some f) : s.Describes src members base (f.set r (f.get base)) := by
  have hf := (field?_eq_some hm).1
  have hrest := (hd.take h hm).set h hf (hd.name_not_mem hm) (f.get base)
  rwa [h.set_set hf, h.set_get hf] at hrest

/-- With another value of a member of the schema the record has that value. -/
theorem Describes.replace (h : s.Coherent) (hd : s.Describes src (m :: members) base r)
    (hm : s.field? m.1 = some f) {v : ν} {x : f.Value} (hx : f.codec.decode src v = .ok x) :
    s.Describes src ((m.1, v) :: members) base (f.set r x) := by
  have hf := (field?_eq_some hm).1
  have hnot := hd.name_not_mem hm
  have hrest := (hd.take h hm).set h hf hnot x
  rw [h.set_set hf] at hrest
  rw [(field?_eq_some hm).2] at hnot
  exact hrest.cons_some h hm hnot hx

end

end Schema

/-! ### Objects -/

namespace Json

/-- A member of an object; the name is missing if it does not denote a text. -/
abbrev Member := Option String × Json

theorem object_ne_null (ms : List Member) : object ms ≠ null := nofun

theorem array_ne_null (vs : List Json) : array vs ≠ null := nofun

/-- Whether all members have names. -/
def AllNamed (ms : List Member) : Prop :=
  ∀ m ∈ ms, m.1.isSome = true

/-- The members by name. -/
def named (ms : List Member) : List (String × Json) :=
  ms.map fun m => (m.1.getD "", m.2)

/-- The members of other names. -/
def without (name : String) (ms : List Member) : List Member :=
  ms.filter fun m => m.1 != some name

theorem without_eq_self {name : String} {ms : List Member} (h : ∀ m ∈ ms, m.1 ≠ some name) :
    without name ms = ms := by
  refine List.filter_eq_self.mpr ?_
  intro m hm
  simpa using h m hm

@[simp] theorem named_append (a b : List Member) : named (a ++ b) = named a ++ named b :=
  List.map_append

@[simp] theorem named_cons (name : String) (v : Json) (ms : List Member) :
    named ((some name, v) :: ms) = (name, v) :: named ms := rfl

variable {s : Schema ρ} {tooManyItems : Nat → DecodeError} {ms : List Member} {r : ρ}

/-- The members of an object as the source has them. -/
theorem members?_object (h : AllNamed ms) :
    (source tooManyItems).members? (.object ms) =
      some ((named ms).map fun m => (.ok m.1, m.2)) := by
  show some (ms.map fun m => (memberName m.1, m.2)) = _
  unfold named
  rw [List.map_map]
  refine congrArg some (List.map_congr_left ?_)
  rintro ⟨name?, v⟩ hm
  obtain ⟨name, hname⟩ := Option.isSome_iff_exists.mp (h _ hm)
  obtain rfl : name? = some name := hname
  rfl

variable (h : s.Coherent) (hopen : s.Open)

include h hopen

/-- From an object an open schema decodes what its members describe. -/
theorem decode_object_iff : s.decode (source tooManyItems) (.object ms) = .ok r ↔
    AllNamed ms ∧ s.Describes (source tooManyItems) (named ms) s.initial r := by
  have hmembers : (source tooManyItems).members? (.object ms) =
      some (ms.map fun m => (memberName m.1, m.2)) := rfl
  constructor
  · intro hdecode
    obtain ⟨members, hraw, hd, -⟩ := (Schema.decode_eq_ok_iff h hmembers).mp hdecode
    have hnames : AllNamed ms := by
      intro m hm
      have hmem : (memberName m.1, m.2) ∈ members.map fun m => (.ok m.1, m.2) :=
        hraw ▸ List.mem_map.mpr ⟨m, hm, rfl⟩
      obtain ⟨m', -, hname⟩ := List.mem_map.mp hmem
      cases hm : m.1 with
      | none =>
        rw [hm] at hname
        cases (Prod.mk.inj hname).1
      | some => rfl
    have hsame := Option.some.inj (hmembers.symm.trans (members?_object hnames))
    rw [hsame] at hraw
    rw [Schema.eq_of_map_ok_eq hraw]
    exact ⟨hnames, hd⟩
  · rintro ⟨hnames, hd⟩
    refine Schema.decode_of_describes h (members?_object hnames) hd ?_
    intro f hf hrequired
    exact absurd ((hopen.optional f hf).symm.trans hrequired) Bool.false_ne_true

/-- The order of the members of an object does not matter. -/
theorem decode_perm {ms' : List Member} (hperm : ms'.Perm ms)
    (hdecode : s.decode (source tooManyItems) (.object ms) = .ok r) :
    s.decode (source tooManyItems) (.object ms') = .ok r := by
  obtain ⟨hnames, hd⟩ := (decode_object_iff h hopen).mp hdecode
  refine (decode_object_iff h hopen).mpr ⟨?_, hd.perm (hperm.map _)⟩
  intro m hm
  exact hnames m (hperm.mem_iff.mp hm)

/-- A member of another name may be inserted anywhere. -/
theorem decode_insert {a b : List Member} {name : String} (hname : name ∉ s.names) (v : Json)
    (hdecode : s.decode (source tooManyItems) (.object (a ++ b)) = .ok r) :
    s.decode (source tooManyItems) (.object (a ++ (some name, v) :: b)) = .ok r := by
  refine decode_perm h hopen List.perm_middle ?_
  obtain ⟨hnames, hd⟩ := (decode_object_iff h hopen).mp hdecode
  have hunknown : s.field? name = none := by
    cases hfound : s.field? name with
    | none => rfl
    | some f =>
      obtain ⟨hf, rfl⟩ := Schema.field?_eq_some hfound
      exact absurd (List.mem_map.mpr ⟨f, hf, rfl⟩) hname
  refine (decode_object_iff h hopen).mpr ⟨List.forall_mem_cons.mpr ⟨rfl, hnames⟩, ?_⟩
  exact hd.cons_none hopen.closed_eq hunknown

section

variable {f : Field ρ} (hf : f ∈ s.fields) {a b : List Member} {v : Json}

include hf

omit hf in
/-- A member of an object may be thought to stand in front. -/
theorem describes_of_member
    (hdecode : s.decode (source tooManyItems) (.object (a ++ (some f.name, v) :: b)) = .ok r) :
    AllNamed (a ++ b) ∧
      s.Describes (source tooManyItems) ((f.name, v) :: named (a ++ b)) s.initial r := by
  have hfront := decode_perm h hopen List.perm_middle.symm hdecode
  obtain ⟨hnames, hd⟩ := (decode_object_iff h hopen).mp hfront
  exact ⟨(List.forall_mem_cons.mp hnames).2, hd⟩

/-- The value of a member of the schema is decoded to that of the record. -/
theorem decode_member
    (hdecode : s.decode (source tooManyItems) (.object (a ++ (some f.name, v) :: b)) = .ok r) :
    f.codec.decode (source tooManyItems) v = .ok (f.get r) := by
  obtain ⟨-, hd⟩ := describes_of_member h hopen hdecode
  exact hd.decoded _ List.mem_cons_self f (h.field?_name hf)

/-- Without a member of the schema the record has the default. -/
theorem decode_remove
    (hdecode : s.decode (source tooManyItems) (.object (a ++ (some f.name, v) :: b)) = .ok r) :
    s.decode (source tooManyItems) (.object (a ++ b)) = .ok (f.set r (f.get s.initial)) := by
  obtain ⟨hnames, hd⟩ := describes_of_member h hopen hdecode
  exact (decode_object_iff h hopen).mpr ⟨hnames, hd.remove h (h.field?_name hf)⟩

/-- Without a member of the schema, if there is one, the record has the default. -/
theorem decode_without (hdecode : s.decode (source tooManyItems) (.object ms) = .ok r) :
    s.decode (source tooManyItems) (.object (without f.name ms)) =
      .ok (f.set r (f.get s.initial)) := by
  by_cases hmem : ∃ v, (some f.name, v) ∈ ms
  · obtain ⟨v, hv⟩ := hmem
    obtain ⟨a, b, rfl⟩ := List.append_of_mem hv
    obtain ⟨-, hd⟩ := describes_of_member h hopen hdecode
    -- A second member of the name would have been refused, so this is the only one.
    have hrest : ∀ m ∈ a ++ b, m.1 ≠ some f.name := by
      rintro ⟨name?, w⟩ hm rfl
      have hagain : (f.name, w) ∈ named (a ++ b) := List.mem_map.mpr ⟨_, hm, rfl⟩
      exact hd.name_not_mem (h.field?_name hf)
        (Schema.mem_knownNames (h.field?_name hf) hagain)
    have hself : without f.name (a ++ (some f.name, v) :: b) = a ++ b := by
      rw [← without_eq_self hrest]
      simp [without]
    rw [hself]
    exact decode_remove h hopen hf hdecode
  · have hother : ∀ m ∈ ms, m.1 ≠ some f.name := by
      rintro ⟨name?, v⟩ hm rfl
      exact hmem ⟨v, hm⟩
    obtain ⟨hnames, hd⟩ := (decode_object_iff h hopen).mp hdecode
    have hkept : f.get s.initial = f.get r := by
      refine hd.kept f hf ?_
      intro hname
      obtain ⟨m', hm', hname⟩ := List.mem_map.mp hname
      obtain ⟨m, hm, rfl⟩ := List.mem_map.mp hm'
      obtain ⟨name, hsome⟩ := Option.isSome_iff_exists.mp (hnames m hm)
      rw [hsome] at hname
      obtain rfl : name = f.name := hname
      exact hother m hm hsome
    rw [without_eq_self hother, hkept, h.set_get hf]
    exact hdecode

/-- With another value of a member of the schema the record has that value. -/
theorem decode_replace {w : Json} {x : f.Value}
    (hx : f.codec.decode (source tooManyItems) w = .ok x)
    (hdecode : s.decode (source tooManyItems) (.object (a ++ (some f.name, v) :: b)) = .ok r) :
    s.decode (source tooManyItems) (.object (a ++ (some f.name, w) :: b)) = .ok (f.set r x) := by
  refine decode_perm h hopen List.perm_middle ?_
  obtain ⟨hnames, hd⟩ := describes_of_member h hopen hdecode
  refine (decode_object_iff h hopen).mpr ⟨List.forall_mem_cons.mpr ⟨rfl, hnames⟩, ?_⟩
  exact hd.replace h (h.field?_name hf) hx

/-- An object with a member of the schema twice is refused. -/
theorem decode_repeated {c : List Member} {w : Json} :
    s.decode (source tooManyItems)
      (.object (a ++ (some f.name, v) :: (b ++ (some f.name, w) :: c))) ≠ .ok r := by
  intro hdecode
  obtain ⟨-, hd⟩ := describes_of_member h hopen hdecode
  have hagain : (f.name, w) ∈ named (a ++ (b ++ (some f.name, w) :: c)) := by simp
  exact hd.name_not_mem (h.field?_name hf)
    (Schema.mem_knownNames (h.field?_name hf) hagain)

end

end Json

end Provisioning
