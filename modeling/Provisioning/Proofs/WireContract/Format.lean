import Provisioning.Proofs.Format.Record
import Provisioning.Proofs.Yaml.Source
import Provisioning.WireContract

/-! # What wire contracts may say

    The two keys of a wire contract, either of which may be left out and then counts as the version
    that added the modes. A contract is loaded if its file keeps to the table and the version from
    which on the modes are carried is not newer than the current one. So in a loaded contract the
    current version and all later ones carry the modes.
-/

namespace Provisioning.WireContract

open Yaml (IsText parse?)

/-! ### The table -/

/-- The key of the version since which the modes are carried. -/
def since : Entry WireContract where
  name := "provisioning-mode-since"
  format := .uint32
  get := modesSince
  default? := some (12 : UInt32)

/-- The key of the current version. -/
def current : Entry WireContract where
  name := "current-version"
  format := .uint32
  get := currentVersion
  default? := some (12 : UInt32)

/-- The keys of a wire contract. -/
def table : List (Entry WireContract) := [since, current]

/-- What wire contracts may say. -/
def format : Format WireContract :=
  .record table

attribute [local simp] schema in
theorem schema_coherent : schema.Coherent where

instance : schema.Follows table where
  coherent := schema_coherent

instance : schema.codec.Follows format :=
  inferInstanceAs (schema.codec.Follows (.record table))

/-! ### Loading -/

theorem validate_eq (k : WireContract) :
    k.validate = if k.modesSince ≤ k.currentVersion then .ok () else .error k.inconsistent := by
  unfold validate
  by_cases h : k.modesSince ≤ k.currentVersion
  · rw [if_pos h, if_neg (UInt32.not_lt.mpr h)]
  · rw [if_neg h, if_pos (UInt32.not_le.mp h)]

/-- From its current version on a consistent contract has the modes carried. -/
theorem carriesModes_of_le {k : WireContract} (hk : k.modesSince ≤ k.currentVersion)
    {version : UInt32} (hversion : k.currentVersion ≤ version) : k.carriesModes version = true := by
  unfold carriesModes
  rw [decide_eq_true_iff]
  exact UInt32.le_trans hk hversion

/-- What is decoded is loaded if it is consistent. -/
theorem ofYaml_eq (s : String) :
    ofYaml s = match schema.codec.ofYaml s with
      | .error e => .error (unreadable e.message)
      | .ok k => if k.modesSince ≤ k.currentVersion then .ok k else .error k.inconsistent := by
  unfold ofYaml
  cases schema.codec.ofYaml s with
  | error e => rfl
  | ok k =>
    show (k.validate.map fun _ => k) =
      if k.modesSince ≤ k.currentVersion then .ok k else .error k.inconsistent
    rw [validate_eq]
    split <;> rfl

/-- A text that is not loaded is reported as a bad contract, whatever is wrong with it. -/
theorem kind_of_ofYaml {s : String} {f : Failure} (h : ofYaml s = .error f) :
    f.kind = .invalidWireContract := by
  rw [ofYaml_eq] at h
  split at h
  · obtain rfl := Except.error.inj h
    rfl
  · split at h
    · cases h
    · obtain rfl := Except.error.inj h
      rfl

/-- A loaded contract is consistent, and its text says it. -/
theorem says_of_ofYaml {s : String} {k : WireContract} (h : ofYaml s = .ok k) :
    k.modesSince ≤ k.currentVersion ∧ ∃ v, parse? s = some v ∧ format.Says v k := by
  rw [ofYaml_eq] at h
  split at h
  · cases h
  · next hread =>
    split at h
    · next hconsistent =>
      obtain rfl := Except.ok.inj h
      obtain ⟨v, hparse, hdecode⟩ := Codec.exists_parse?_of_ofYaml hread
      exact ⟨hconsistent, v, hparse, (Codec.Follows.sound hdecode).2.2⟩
    · cases h

/-- A text in which nothing is wrong says a contract, which is loaded if it is consistent. -/
theorem ofYaml_of_shaped {s : String} {v : Yaml} (h : parse? s = some v)
    (hshaped : format.Shaped v) (hflawed : ¬ format.Flawed v) :
    ∃ k, format.Says v k ∧
      ofYaml s = if k.modesSince ≤ k.currentVersion then .ok k else .error k.inconsistent := by
  obtain ⟨k, hk⟩ := Codec.Follows.complete (c := schema.codec) hshaped hflawed
  refine ⟨k, (Codec.Follows.sound hk).2.2, ?_⟩
  rw [ofYaml_eq, schema.codec.ofYaml_of_parse? h, hk]

/-! ### Files with one key -/

section

variable {s : String} {tag? : Option String} {key w : Yaml} {n : UInt32}

theorem since_mem : since ∈ table := List.mem_cons_self

theorem current_mem : current ∈ table := List.mem_cons_of_mem _ List.mem_cons_self

theorem table_cases {e : Entry WireContract} (he : e ∈ table) : e = since ∨ e = current := by
  simpa [table] using he

theorem table_injective {e e' : Entry WireContract} (he : e ∈ table) (he' : e' ∈ table)
    (hname : e.name = e'.name) : e = e' := by
  rcases table_cases he with rfl | rfl <;> rcases table_cases he' with rfl | rfl
  · rfl
  · exact absurd hname (by decide)
  · exact absurd hname (by decide)
  · rfl

/-- A file with one of the keys, under which there is nothing wrong, says a contract: the key what
is written, and the other one its default. -/
theorem exists_says_of_single {e e' : Entry WireContract} (he : e ∈ table) (he' : e' ∈ table)
    (hne : e.name ≠ e'.name) (h : parse? s = some (.mapping tag? [(key, w)]))
    (hkey : IsText key e.name) (hshaped : e.format.Shaped w) (hflawed : ¬ e.format.Flawed w) :
    ∃ k, (e.format.Says w (e.get k) ∧ e'.default? = some (e'.get k)) ∧
      ofYaml s = if k.modesSince ≤ k.currentVersion then .ok k else .error k.inconsistent := by
  -- The key is the name of one entry only.
  have hentry : ∀ e' ∈ table, IsText key e'.name → e' = e := by
    intro e' he' hname
    apply table_injective he' he
    rw [← hname.keyText_eq, hkey.keyText_eq]
  have hwhole : format.Shaped (.mapping tag? [(key, w)]) := by
    refine ⟨_, .mapping, ?_⟩
    intro e' he' m hm hname
    obtain rfl := List.mem_singleton.mp hm
    obtain rfl := hentry e' he' hname
    exact hshaped
  have hsound : ¬ format.Flawed (.mapping tag? [(key, w)]) := by
    rintro ⟨ms, hms, hfault⟩
    obtain rfl := hms.unique .mapping
    cases hfault with
    | unknown hm hunknown =>
      obtain rfl := List.mem_singleton.mp hm
      exact hunknown e he hkey
    | repeated _ hsub =>
      -- There is one member, and not two.
      have hlength := hsub.length_le
      simp at hlength
    | lacking he' hnone =>
      rcases table_cases he' with rfl | rfl <;> cases hnone
    | inside he' hm hname hinside =>
      obtain rfl := List.mem_singleton.mp hm
      obtain rfl := hentry _ he' hname
      exact hflawed hinside
  obtain ⟨k, ⟨ms, hms, hsaid⟩, hload⟩ := ofYaml_of_shaped h hwhole hsound
  obtain rfl := hms.unique .mapping
  refine ⟨k, ⟨hsaid.written e he _ List.mem_cons_self hkey, hsaid.absent e' he' ?_⟩, hload⟩
  -- The other key is not written.
  intro m hm hname
  obtain rfl := List.mem_singleton.mp hm
  exact hne (hkey.keyText_eq.symm.trans hname.keyText_eq)

theorem uint32_unique {k m : UInt32} (hk : Format.uint32.Says w k) (hm : Format.uint32.Says w m) :
    k = m := by
  unfold Format.uint32 at hk hm
  have hsame := Format.value_unique hk hm
  exact UInt32.toNat_inj.mp (Int.ofNat.inj hsame)

theorem uint32_not_flawed (hn : Format.uint32.Says w n) : ¬ Format.uint32.Flawed w := by
  have hlt : n.toNat < 2 ^ 32 := n.toNat_lt
  apply Format.not_flawed_of_inRange hn
  · exact Int.natCast_nonneg n.toNat
  · show (n.toNat : Int) ≤ 4294967295
    omega

variable (h : parse? s = some (.mapping tag? [(key, w)])) (hshaped : Format.uint32.Shaped w)
  (hn : Format.uint32.Says w n)

include h hshaped hn

/-- A file that only says since when the modes are carried is loaded if the default of the current
version is not older. -/
theorem ofYaml_of_since (hkey : IsText key "provisioning-mode-since") :
    ofYaml s = if n ≤ 12 then .ok ⟨n, 12⟩ else .error (inconsistent ⟨n, 12⟩) := by
  obtain ⟨⟨modes, version⟩, ⟨hwritten, habsent⟩, hload⟩ :=
    exists_says_of_single since_mem current_mem (by decide) h hkey hshaped (uint32_not_flawed hn)
  obtain rfl : n = modes := uint32_unique hn hwritten
  obtain rfl : (12 : UInt32) = version := Option.some.inj habsent
  exact hload

/-- A file that only says the current version is loaded if that version is not older than the
default from which on the modes are carried. -/
theorem ofYaml_of_current (hkey : IsText key "current-version") :
    ofYaml s = if 12 ≤ n then .ok ⟨12, n⟩ else .error (inconsistent ⟨12, n⟩) := by
  obtain ⟨⟨modes, version⟩, ⟨hwritten, habsent⟩, hload⟩ :=
    exists_says_of_single current_mem since_mem (by decide) h hkey hshaped (uint32_not_flawed hn)
  obtain rfl : n = version := uint32_unique hn hwritten
  obtain rfl : (12 : UInt32) = modes := Option.some.inj habsent
  exact hload

end

end Provisioning.WireContract
