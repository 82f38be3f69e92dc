import Provisioning.Proofs.Codec

/-! # Laws of schemas

    The members of a coherent schema are independent parts that make up the record together: what
    is set in one is found there and nowhere else, and records that agree in all of them are the
    same. From a list of named values such a schema decodes the one record whose members have
    these values, and the default where there is none; it decodes no other list. What it encodes is
    such a list.
-/

namespace Provisioning

variable {ρ : Type}

namespace Schema

/-! ### Coherence -/

/-- A schema with members of different names that are independent and make up the record; what is
not written is the default, and what is required is always written. For a schema whose definition
is unfolded by `simp` the laws prove themselves. -/
structure Coherent (s : Schema ρ) : Prop where
  nodup : s.names.Nodup := by decide
  get_set : ∀ f ∈ s.fields, ∀ r x, f.get (f.set r x) = x := by
    repeat' first
      | exact List.forall_mem_nil _
      | refine List.forall_mem_cons.mpr ⟨fun _ _ => rfl, ?_⟩
  independent : s.fields.Pairwise (fun f g =>
    (∀ r x, f.get (g.set r x) = f.get r) ∧ ∀ r x, g.get (f.set r x) = g.get r) := by
    -- Each pair is one of computations, which `simp` would take long to find.
    repeat' first
      | exact List.Pairwise.nil
      | refine List.Pairwise.cons ?_ ?_
      | exact List.forall_mem_nil _
      | refine List.forall_mem_cons.mpr ⟨⟨fun _ _ => rfl, fun _ _ => rfl⟩, ?_⟩
  complete : ∀ r r', (∀ f ∈ s.fields, f.get r = f.get r') → r = r' := by
    rintro ⟨⟩ ⟨⟩ h
    simpa using h
  omitted : ∀ f ∈ s.fields, ∀ x, f.omits x = true → x = f.get s.initial := by simp
  required : ∀ f ∈ s.fields, f.required = true → ∀ x, f.omits x = false := by
    repeat' first
      | exact List.forall_mem_nil _
      | refine List.forall_mem_cons.mpr ⟨fun _ _ => rfl, ?_⟩
      | refine List.forall_mem_cons.mpr ⟨fun h => absurd h Bool.false_ne_true, ?_⟩

/-- A coherent schema whose names are names of members and whose codecs are lawful. -/
class Lawful (s : Schema ρ) (depth : Nat) : Prop extends Coherent s where
  memberName : ∀ f ∈ s.fields, isMemberName f.name.toList = true := by decide
  lawful : ∀ f ∈ s.fields, f.codec.Lawful depth := by
    simp
    and_intros <;> infer_instance

section

variable {s : Schema ρ} (h : s.Coherent) {f g : Field ρ}

include h

/-- A member is found under its name. -/
theorem Coherent.field?_name (hf : f ∈ s.fields) : s.field? f.name = some f := by
  have hnodup := h.nodup
  unfold names at hnodup
  unfold field?
  generalize s.fields = fs at hf hnodup
  induction fs with
  | nil => cases hf
  | cons g fs ih =>
    obtain ⟨hg, hnodup⟩ := List.nodup_cons.mp hnodup
    by_cases hname : g.name = f.name
    · rcases List.mem_cons.mp hf with rfl | hf
      · simp
      · exact absurd (List.mem_map.mpr ⟨f, hf, hname.symm⟩) hg
    · rcases List.mem_cons.mp hf with rfl | hf
      · exact absurd rfl hname
      · rw [List.find?_cons_of_neg (by simpa using hname)]
        exact ih hf hnodup

/-- No member has a name under which there is none. -/
theorem Coherent.name_ne (hf : f ∈ s.fields) {name : String} (hname : s.field? name = none) :
    f.name ≠ name := by
  rintro rfl
  rw [h.field?_name hf] at hname
  cases hname

/-- Members of one name are the same. -/
theorem Coherent.eq_of_name_eq (hf : f ∈ s.fields) (hg : g ∈ s.fields) (hname : f.name = g.name) :
    f = g := by
  have hfound := h.field?_name hf
  rw [hname, h.field?_name hg] at hfound
  exact (Option.some.inj hfound).symm

/-- A member does not see what is set in another. -/
theorem Coherent.get_set_of_ne (hf : f ∈ s.fields) (hg : g ∈ s.fields) (hne : f.name ≠ g.name)
    (r : ρ) (x : g.Value) : f.get (g.set r x) = f.get r := by
  have hall : ∀ f ∈ s.fields, ∀ g ∈ s.fields, f.name ≠ g.name →
      ∀ r x, f.get (g.set r x) = f.get r := by
    refine List.Pairwise.forall_of_forall_of_flip ?_ ?_ ?_
    · intro f _ hne
      exact absurd rfl hne
    · refine h.independent.imp ?_
      intro f g hind _
      exact hind.1
    · refine h.independent.imp ?_
      intro f g hind _
      exact hind.2
  exact hall f hf g hg hne r x

end

/-! ### Decoding -/

theorem field?_eq_some {s : Schema ρ} {name : String} {f : Field ρ} (h : s.field? name = some f) :
    f ∈ s.fields ∧ f.name = name := by
  unfold field? at h
  have hname := List.find?_some h
  exact ⟨List.mem_of_find?_eq_some h, by simpa using hname⟩

/-- The names in a list of named values that are names of the schema. -/
def knownNames {ν : Type} (s : Schema ρ) (members : List (String × ν)) : List String :=
  (members.map Prod.fst).filter fun name => (s.field? name).isSome

theorem knownNames_cons_none {ν : Type} {s : Schema ρ} {m : String × ν}
    (h : s.field? m.1 = none) (members : List (String × ν)) :
    s.knownNames (m :: members) = s.knownNames members := by
  simp [knownNames, h]

theorem knownNames_cons_some {ν : Type} {s : Schema ρ} {m : String × ν} {f : Field ρ}
    (h : s.field? m.1 = some f) (members : List (String × ν)) :
    s.knownNames (m :: members) = m.1 :: s.knownNames members := by
  simp [knownNames, h]

theorem mem_knownNames {ν : Type} {s : Schema ρ} {m : String × ν} {f : Field ρ}
    (h : s.field? m.1 = some f) {members : List (String × ν)} (hm : m ∈ members) :
    m.1 ∈ s.knownNames members :=
  List.mem_filter.mpr ⟨List.mem_map.mpr ⟨m, hm, rfl⟩, by simp [h]⟩

/-- A list of named values of which each is decoded to a member of `r`, and the members of `r`
that are not named are those of `base`. -/
structure Describes {ν : Type} (s : Schema ρ) (src : Source ν) (members : List (String × ν))
    (base r : ρ) : Prop where
  nodup : (s.knownNames members).Nodup
  known : s.closed = true → ∀ m ∈ members, (s.field? m.1).isSome
  decoded : ∀ m ∈ members, ∀ f, s.field? m.1 = some f →
    f.codec.decode src m.2 = .ok (f.get r)
  kept : ∀ f ∈ s.fields, f.name ∉ members.map Prod.fst → f.get base = f.get r

section

variable {ν : Type} {s : Schema ρ} {src : Source ν} {members : List (String × ν)} {base r : ρ}
  {m : String × ν}

/-- Behind a member of no name of the schema the rest describes the same record. -/
theorem Describes.skip (h : s.Coherent) (hd : s.Describes src (m :: members) base r)
    (hm : s.field? m.1 = none) : s.Describes src members base r := by
  have hnodup := hd.nodup
  rw [knownNames_cons_none hm] at hnodup
  refine ⟨hnodup, ?_, ?_, ?_⟩
  · intro hclosed m' hm'
    exact hd.known hclosed m' (List.mem_cons_of_mem _ hm')
  · intro m' hm'
    exact hd.decoded m' (List.mem_cons_of_mem _ hm')
  · intro f hf hnot
    refine hd.kept f hf ?_
    intro hmem
    rcases List.mem_cons.mp hmem with hname | hmem
    · exact h.name_ne hf hm hname
    · exact hnot hmem

/-- Where a member has no name of the schema the schema is open. -/
theorem Describes.closed_eq_false (hd : s.Describes src (m :: members) base r)
    (hm : s.field? m.1 = none) : s.closed = false := by
  cases hclosed : s.closed with
  | false => rfl
  | true =>
    have hsome := hd.known hclosed m List.mem_cons_self
    rw [hm] at hsome
    cases hsome

/-- Behind a member of the schema the rest describes the same record, on the base in which the
member is set. -/
theorem Describes.take (h : s.Coherent) (hd : s.Describes src (m :: members) base r)
    {f : Field ρ} (hm : s.field? m.1 = some f) :
    s.Describes src members (f.set base (f.get r)) r := by
  obtain ⟨hf, hname⟩ := field?_eq_some hm
  have hnodup := hd.nodup
  rw [knownNames_cons_some hm] at hnodup
  refine ⟨(List.nodup_cons.mp hnodup).2, ?_, ?_, ?_⟩
  · intro hclosed m' hm'
    exact hd.known hclosed m' (List.mem_cons_of_mem _ hm')
  · intro m' hm'
    exact hd.decoded m' (List.mem_cons_of_mem _ hm')
  · intro g hg hnot
    by_cases heq : g.name = f.name
    · obtain rfl := h.eq_of_name_eq hg hf heq
      exact h.get_set g hg base (g.get r)
    · rw [h.get_set_of_ne hg hf heq]
      refine hd.kept g hg ?_
      intro hmem
      rcases List.mem_cons.mp hmem with hgm | hmem
      · exact heq (hgm.trans hname.symm)
      · exact hnot hmem

/-- In an open schema a member of another name may stand in front of what describes a record. -/
theorem Describes.cons_none (hopen : s.closed = false) (hm : s.field? m.1 = none)
    (hd : s.Describes src members base r) : s.Describes src (m :: members) base r := by
  refine ⟨?_, ?_, ?_, ?_⟩
  · rw [knownNames_cons_none hm]
    exact hd.nodup
  · intro hclosed
    exact absurd (hopen.symm.trans hclosed) Bool.false_ne_true
  · intro m' hm' f hf
    rcases List.mem_cons.mp hm' with rfl | hm'
    · exact absurd (hm.symm.trans hf) nofun
    · exact hd.decoded m' hm' f hf
  · intro f hf hnot
    exact hd.kept f hf fun hmem => hnot (List.mem_cons_of_mem _ hmem)

/-- In front of what describes a record on a base in which a member is set the member may stand. -/
theorem Describes.cons_some (h : s.Coherent) {f : Field ρ} (hm : s.field? m.1 = some f)
    (hnew : m.1 ∉ s.knownNames members) {x : f.Value} (hvalue : f.codec.decode src m.2 = .ok x)
    (hd : s.Describes src members (f.set base x) r) : s.Describes src (m :: members) base r := by
  obtain ⟨hf, hname⟩ := field?_eq_some hm
  have hnot : f.name ∉ members.map Prod.fst := by
    intro hmem
    rw [← hname] at hnew
    exact hnew (List.mem_filter.mpr ⟨hmem, by simp [h.field?_name hf]⟩)
  have hget : x = f.get r := by
    rw [← hd.kept f hf hnot, h.get_set f hf]
  refine ⟨?_, ?_, ?_, ?_⟩
  · rw [knownNames_cons_some hm]
    exact List.nodup_cons.mpr ⟨hnew, hd.nodup⟩
  · intro hclosed m' hm'
    rcases List.mem_cons.mp hm' with rfl | hm'
    · simp [hm]
    · exact hd.known hclosed m' hm'
  · intro m' hm' g hg
    rcases List.mem_cons.mp hm' with rfl | hm'
    · obtain rfl := Option.some.inj (hm.symm.trans hg)
      rw [hvalue, hget]
    · exact hd.decoded m' hm' g hg
  · intro g hg hgnot
    have hne : g.name ≠ f.name := by
      intro heq
      exact hgnot (heq ▸ hname ▸ List.mem_cons_self)
    rw [← h.get_set_of_ne hg hf hne base x]
    exact hd.kept g hg fun hmem => hgnot (List.mem_cons_of_mem _ hmem)

/-- A list of named values is decoded to the record that it describes, and the names of the schema
in it have been seen. -/
theorem decodeMembers_of_describes (h : s.Coherent) {seen : List String}
    (hd : s.Describes src members base r) (hseen : ∀ m ∈ members, m.1 ∉ seen) :
    ∃ seen', s.decodeMembers src (members.map fun m => (.ok m.1, m.2)) seen base = .ok (r, seen') ∧
      ∀ f ∈ s.fields, f.name ∈ seen ∨ f.name ∈ members.map Prod.fst → f.name ∈ seen' := by
  induction members generalizing seen base with
  | nil =>
    have hbase : base = r := by
      refine h.complete base r ?_
      intro f hf
      exact hd.kept f hf (List.not_mem_nil)
    refine ⟨seen, ?_, ?_⟩
    · rw [hbase]
      rfl
    · intro f _ hmem
      simpa using hmem
  | cons m members ih =>
    have hrest : ∀ m' ∈ members, m'.1 ∉ seen := by
      intro m' hm'
      exact hseen m' (List.mem_cons_of_mem _ hm')
    rw [List.map_cons, decodeMembers]
    cases hm : s.field? m.1 with
    | none =>
      -- A closed schema knows all the names, so this one is open and skips the member.
      have hopen := hd.closed_eq_false hm
      obtain ⟨seen', hdecode, hnames⟩ := ih (hd.skip h hm) hrest
      refine ⟨seen', ?_, ?_⟩
      · simpa [hopen] using hdecode
      · intro f hf hmem
        refine hnames f hf ?_
        rcases hmem with hmem | hmem
        · exact .inl hmem
        · rcases List.mem_cons.mp hmem with hname | hmem
          · exact absurd hname (h.name_ne hf hm)
          · exact .inr hmem
    | some f =>
      -- The member is set, and from the new base the rest describes the same record.
      have hnew : seen.contains m.1 = false := by
        simpa using hseen m List.mem_cons_self
      have hvalue : f.decodeInto src m.2 base = .ok (f.set base (f.get r)) := by
        unfold Field.decodeInto
        rw [hd.decoded m List.mem_cons_self f hm]
      have hseen' : ∀ m' ∈ members, m'.1 ∉ m.1 :: seen := by
        intro m' hm' hmem
        rcases List.mem_cons.mp hmem with hname | hmem
        · have hnodup := hd.nodup
          rw [knownNames_cons_some hm] at hnodup
          have hknown := mem_knownNames (hname.symm ▸ hm) hm'
          exact (List.nodup_cons.mp hnodup).1 (hname ▸ hknown)
        · exact hrest m' hm' hmem
      obtain ⟨seen', hdecode, hnames⟩ := ih (hd.take h hm) hseen'
      refine ⟨seen', ?_, ?_⟩
      · simpa only [hnew, hvalue, Bool.false_eq_true, ↓reduceIte] using hdecode
      · intro g hg hmem
        refine hnames g hg ?_
        rcases hmem with hmem | hmem
        · exact .inl (List.mem_cons_of_mem _ hmem)
        · rcases List.mem_cons.mp hmem with hname | hmem
          · exact .inl (hname ▸ List.mem_cons_self)
          · exact .inr hmem

/-- A member that is taken has a name. It is passed over if the schema is open and has no member of
this name, and else it is decoded and set, which happens once for each name. -/
theorem decodeMembers_cons_eq_ok {name : Except DecodeError String} {v : ν}
    {raw : List (Except DecodeError String × ν)} {seen : List String} {result : ρ × List String}
    (hdecode : s.decodeMembers src ((name, v) :: raw) seen base = .ok result) :
    ∃ n, name = .ok n ∧
      ((s.field? n = none ∧ s.closed = false ∧
        s.decodeMembers src raw seen base = .ok result) ∨
      ∃ (f : Field ρ) (x : f.Value), s.field? n = some f ∧ n ∉ seen ∧
        f.codec.decode src v = .ok x ∧
        s.decodeMembers src raw (n :: seen) (f.set base x) = .ok result) := by
  unfold decodeMembers at hdecode
  cases name with
  | error e => cases hdecode
  | ok n =>
    refine ⟨n, rfl, ?_⟩
    -- A test that is not passed ends in an error, so the member has passed them all.
    dsimp only at hdecode
    cases hn : s.field? n with
    | none =>
      simp only [hn] at hdecode
      by_cases hclosed : s.closed = true
      · rw [if_pos hclosed] at hdecode
        cases hdecode
      · rw [if_neg hclosed] at hdecode
        exact .inl ⟨rfl, by simpa using hclosed, hdecode⟩
    | some f =>
      simp only [hn] at hdecode
      by_cases hseen : seen.contains n = true
      · rw [if_pos hseen] at hdecode
        cases hdecode
      · rw [if_neg hseen] at hdecode
        unfold Field.decodeInto at hdecode
        cases hvalue : f.codec.decode src v with
        | error e =>
          simp only [hvalue] at hdecode
          cases hdecode
        | ok x =>
          simp only [hvalue] at hdecode
          exact .inr ⟨f, x, rfl, by simpa using hseen, hvalue, hdecode⟩

/-- A list of named values is decoded only to what it describes, and only if no name of the schema
in it has been seen. -/
theorem describes_of_decodeMembers (h : s.Coherent) {seen seen' : List String}
    (hdecode : s.decodeMembers src (members.map fun m => (.ok m.1, m.2)) seen base =
      .ok (r, seen')) :
    s.Describes src members base r ∧ ∀ name ∈ s.knownNames members, name ∉ seen := by
  induction members generalizing seen base with
  | nil =>
    obtain ⟨rfl, -⟩ := Prod.mk.inj (Except.ok.inj hdecode)
    exact ⟨⟨List.nodup_nil, fun _ => nofun, nofun, fun _ _ _ => rfl⟩, nofun⟩
  | cons m members ih =>
    obtain ⟨name, hname, hstep⟩ := decodeMembers_cons_eq_ok hdecode
    obtain rfl : m.1 = name := Except.ok.inj hname
    rcases hstep with ⟨hm, hopen, hrest⟩ | ⟨f, x, hm, hnew, hvalue, hrest⟩
    · obtain ⟨hd, hseen⟩ := ih hrest
      rw [knownNames_cons_none hm]
      exact ⟨hd.cons_none hopen hm, hseen⟩
    · obtain ⟨hd, hseen⟩ := ih hrest
      -- To the rest the name has been seen, so it does not occur again.
      have hlast : m.1 ∉ s.knownNames members := by
        intro hmem
        exact hseen m.1 hmem List.mem_cons_self
      refine ⟨hd.cons_some h hm hlast hvalue, ?_⟩
      rw [knownNames_cons_some hm]
      refine List.forall_mem_cons.mpr ⟨hnew, ?_⟩
      intro name hmem hseen'
      exact hseen name hmem (List.mem_cons_of_mem _ hseen')

theorem eq_of_map_ok_eq {members members' : List (String × ν)}
    (h : (members.map fun m => ((.ok m.1 : Except DecodeError String), m.2)) =
      members'.map fun m => (.ok m.1, m.2)) : members = members' := by
  refine (List.map_inj_right ?_).mp h
  intro m m' heq
  obtain ⟨hname, hvalue⟩ := Prod.mk.inj heq
  exact Prod.ext (Except.ok.inj hname) hvalue

/-- Members that are decoded have names. -/
theorem exists_names_of_decodeMembers {raw : List (Except DecodeError String × ν)}
    {seen : List String} {result : ρ × List String}
    (hdecode : s.decodeMembers src raw seen base = .ok result) :
    ∃ members : List (String × ν), raw = members.map fun m => (.ok m.1, m.2) := by
  induction raw generalizing seen base with
  | nil => exact ⟨[], rfl⟩
  | cons m raw ih =>
    obtain ⟨name, v⟩ := m
    obtain ⟨n, rfl, hstep⟩ := decodeMembers_cons_eq_ok hdecode
    -- Whatever is done with the member, the rest is decoded.
    have hraw : ∃ members : List (String × ν), raw = members.map fun m => (.ok m.1, m.2) := by
      rcases hstep with ⟨-, -, hrest⟩ | ⟨f, x, -, -, -, hrest⟩
      · exact ih hrest
      · exact ih hrest
    obtain ⟨members, rfl⟩ := hraw
    exact ⟨(n, v) :: members, rfl⟩

/-- Only names that are written are seen. -/
theorem mem_of_mem_seen {seen seen' : List String}
    (hdecode : s.decodeMembers src (members.map fun m => (.ok m.1, m.2)) seen base =
      .ok (r, seen')) :
    ∀ name ∈ seen', name ∈ seen ∨ name ∈ members.map Prod.fst := by
  induction members generalizing seen base with
  | nil =>
    obtain ⟨-, rfl⟩ := Prod.mk.inj (Except.ok.inj hdecode)
    intro name hname
    exact .inl hname
  | cons m members ih =>
    intro name hname
    obtain ⟨n, hn, hstep⟩ := decodeMembers_cons_eq_ok hdecode
    obtain rfl : m.1 = n := Except.ok.inj hn
    rcases hstep with ⟨-, -, hrest⟩ | ⟨f, x, -, -, -, hrest⟩
    · rcases ih hrest name hname with hold | hnew
      · exact .inl hold
      · exact .inr (List.mem_cons_of_mem _ hnew)
    · -- The name of the member is seen from here on, and it is written.
      rcases ih hrest name hname with hold | hnew
      · rcases List.mem_cons.mp hold with rfl | hold
        · exact .inr List.mem_cons_self
        · exact .inl hold
      · exact .inr (List.mem_cons_of_mem _ hnew)

/-- A list of named values in which nothing required is missing is decoded to the record that it
describes. -/
theorem decode_of_describes (h : s.Coherent) {v : ν}
    (hv : src.members? v = some (members.map fun m => (.ok m.1, m.2)))
    (hd : s.Describes src members s.initial r)
    (hrequired : ∀ f ∈ s.fields, f.required = true → f.name ∈ members.map Prod.fst) :
    s.decode src v = .ok r := by
  obtain ⟨seen, hdecode, hseen⟩ := decodeMembers_of_describes h hd (fun _ _ => List.not_mem_nil)
  have hmissing : s.missing? seen = none := by
    unfold missing?
    rw [Option.map_eq_none_iff, List.find?_eq_none]
    intro f hf hmiss
    have hmiss : f.required = true ∧ f.name ∉ seen := by simpa using hmiss
    exact hmiss.2 (hseen f hf (.inr (hrequired f hf hmiss.1)))
  unfold decode
  simp only [hv, hdecode, hmissing]

/-- A record is decoded from members with names that describe it, nothing required missing, and
from no others. -/
theorem decode_eq_ok_iff (h : s.Coherent) {v : ν} {raw : List (Except DecodeError String × ν)}
    (hv : src.members? v = some raw) :
    s.decode src v = .ok r ↔
      ∃ members : List (String × ν), raw = members.map (fun m => (.ok m.1, m.2)) ∧
        s.Describes src members s.initial r ∧
        ∀ f ∈ s.fields, f.required = true → f.name ∈ members.map Prod.fst := by
  constructor
  · intro hdecode
    unfold decode at hdecode
    simp only [hv] at hdecode
    split at hdecode
    · cases hdecode
    · next r' seen hread =>
      split at hdecode
      · cases hdecode
      · next hmissing =>
        obtain rfl := Except.ok.inj hdecode
        obtain ⟨members, rfl⟩ := exists_names_of_decodeMembers hread
        refine ⟨members, rfl, (describes_of_decodeMembers h hread).1, ?_⟩
        intro f hf hrequired
        have hseen : f.name ∈ seen := by
          unfold missing? at hmissing
          rw [Option.map_eq_none_iff, List.find?_eq_none] at hmissing
          simpa [hrequired] using hmissing f hf
        rcases mem_of_mem_seen hread f.name hseen with hnone | hmem
        · cases hnone
        · exact hmem
  · rintro ⟨members, rfl, hd, hrequired⟩
    exact decode_of_describes h hv hd hrequired

/-- Named values describe a record if no name of the schema occurs twice, each value under such a
name is decoded, and other names do not matter. -/
theorem exists_describes (h : s.Coherent) (hnodup : (s.knownNames members).Nodup)
    (hknown : s.closed = true → ∀ m ∈ members, (s.field? m.1).isSome)
    (hvalues : ∀ m ∈ members, ∀ f, s.field? m.1 = some f →
      ∃ x, f.codec.decode src m.2 = .ok x) :
    ∃ r, s.Describes src members base r := by
  induction members generalizing base with
  | nil => exact ⟨base, List.nodup_nil, fun _ => nofun, nofun, fun _ _ _ => rfl⟩
  | cons m members ih =>
    have hknown' : s.closed = true → ∀ m ∈ members, (s.field? m.1).isSome := by
      intro hclosed m' hm'
      exact hknown hclosed m' (List.mem_cons_of_mem _ hm')
    have hvalues' : ∀ m ∈ members, ∀ f, s.field? m.1 = some f →
        ∃ x, f.codec.decode src m.2 = .ok x := by
      intro m' hm'
      exact hvalues m' (List.mem_cons_of_mem _ hm')
    cases hm : s.field? m.1 with
    | none =>
      rw [knownNames_cons_none hm] at hnodup
      obtain ⟨r, hd⟩ := ih hnodup hknown' hvalues'
      have hopen : s.closed = false := by
        apply Bool.eq_false_iff.mpr
        intro hclosed
        have hsome := hknown hclosed m List.mem_cons_self
        rw [hm] at hsome
        cases hsome
      exact ⟨r, hd.cons_none hopen hm⟩
    | some f =>
      rw [knownNames_cons_some hm] at hnodup
      obtain ⟨hnew, hnodup⟩ := List.nodup_cons.mp hnodup
      obtain ⟨x, hx⟩ := hvalues m List.mem_cons_self f hm
      -- The rest describes a record on the base in which the member is set.
      obtain ⟨r, hd⟩ : ∃ r, s.Describes src members (f.set base x) r :=
        ih hnodup hknown' hvalues'
      exact ⟨r, hd.cons_some h hm hnew hx⟩

end

/-! ### Encoding -/

section

variable {s : Schema ρ} {depth : Nat}

/-- What is encoded are the members that are not left out. -/
theorem encodeFields_eq (r : ρ) (fs : List (Field ρ)) :
    encodeFields r fs =
      (fs.filter fun f => !f.omits (f.get r)).map fun f => (f.name, f.codec.encode (f.get r)) := by
  induction fs with
  | nil => rfl
  | cons f fs ih =>
    unfold encodeFields
    cases homits : f.omits (f.get r) <;> simp [homits, ih]

theorem mem_encodeFields {r : ρ} {fs : List (Field ρ)} {m : String × Datum} :
    m ∈ encodeFields r fs ↔
      ∃ f ∈ fs, f.omits (f.get r) = false ∧ (f.name, f.codec.encode (f.get r)) = m := by
  simp [encodeFields_eq, and_assoc]

/-- The names of a record that is encoded. -/
theorem mem_names_encodeFields {r : ρ} {fs : List (Field ρ)} {name : String} :
    name ∈ (encodeFields r fs).map Prod.fst ↔
      ∃ f ∈ fs, f.omits (f.get r) = false ∧ f.name = name := by
  simp [encodeFields_eq, and_assoc]

/-- What a record is encoded as describes it. -/
theorem Lawful.describes (h : s.Lawful depth) {ν : Type} {src : Source ν} {embed : Datum → ν}
    (hsrc : src.Carries embed) (r : ρ) :
    s.Describes src ((encodeFields r s.fields).map fun m => (m.1, embed m.2)) s.initial r := by
  refine ⟨?_, ?_, ?_, ?_⟩
  · have hsub : ((encodeFields r s.fields).map Prod.fst).Sublist s.names := by
      rw [encodeFields_eq, List.map_map]
      exact List.filter_sublist.map Field.name
    unfold knownNames
    rw [List.map_map]
    exact (h.nodup.sublist hsub).filter _
  · intro _ m' hm'
    obtain ⟨m, hm, rfl⟩ := List.mem_map.mp hm'
    obtain ⟨f, hf, -, rfl⟩ := mem_encodeFields.mp hm
    simp [h.field?_name hf]
  · intro m' hm' f hfound
    obtain ⟨m, hm, rfl⟩ := List.mem_map.mp hm'
    obtain ⟨g, hg, -, rfl⟩ := mem_encodeFields.mp hm
    rw [h.field?_name hg] at hfound
    obtain rfl := Option.some.inj hfound
    exact (h.lawful g hg).decode_encode hsrc (g.get r)
  · -- What is not written is the default, which the base has.
    intro f hf hnot
    cases homits : f.omits (f.get r) with
    | true => exact (h.omitted f hf _ homits).symm
    | false =>
      refine absurd ?_ hnot
      have hname := mem_names_encodeFields.mpr ⟨f, hf, homits, rfl⟩
      simpa using hname

/-- The codec of a lawful schema is lawful. -/
instance lawful_codec [h : s.Lawful depth] : s.codec.Lawful (depth + 1) where
  readable r := by
    intro m hm
    obtain ⟨f, hf, -, rfl⟩ := mem_encodeFields.mp hm
    exact ⟨h.memberName f hf, (h.lawful f hf).readable (f.get r)⟩
  decode_encode {ν src embed} hsrc r := by
    have hmembers := hsrc.members (encodeFields r s.fields)
    refine decode_of_describes h.toCoherent ?_ (h.describes hsrc r) ?_
    · rw [List.map_map]
      exact hmembers
    · intro f hf hrequired
      have homits := h.required f hf hrequired (f.get r)
      have hname := mem_names_encodeFields.mpr ⟨f, hf, homits, rfl⟩
      simpa using hname

instance neverNull_codec : s.codec.NeverNull := ⟨nofun⟩

end

end Schema

end Provisioning
