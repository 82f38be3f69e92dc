import Provisioning.Codec.Text
import Provisioning.Proofs.Codec
import Provisioning.Proofs.Yaml.Node
import Provisioning.Proofs.Yaml.Scalar

/-! # Data through YAML

    The node of a datum has no aliases, so it is expanded as it stands. YAML values carry data:
    a scalar of the kinds that are written plain is taken for what it is, and a text for a text
    in whatever style. So what a lawful codec writes as YAML text is read back by it, if the
    codec writes records with members.
-/

namespace Provisioning

namespace Yaml

/-! ### The values of data -/

mutual

/-- The value of a datum. -/
def ofDatum : Datum → Yaml
  | .null => .scalar none "null" .plain
  | .boolean true => .scalar none "true" .plain
  | .boolean false => .scalar none "false" .plain
  | .integer i => .scalar none (String.ofList (Numeral.signedDecimal i)) .plain
  | .text s => .scalar none s (styleOf s)
  | .list items => .sequence none (ofItems items)
  | .record members => .mapping none (ofMembers members)

/-- The values of items. -/
def ofItems : List Datum → List Yaml
  | [] => []
  | d :: rest => ofDatum d :: ofItems rest

/-- The values of members. -/
def ofMembers : List (String × Datum) → List (Yaml × Yaml)
  | [] => []
  | (name, d) :: rest => (.scalar none name .plain, ofDatum d) :: ofMembers rest

end

theorem ofItems_eq (ds : List Datum) : ofItems ds = ds.map ofDatum := by
  induction ds with
  | nil => rw [ofItems, List.map_nil]
  | cons d ds ih => rw [ofItems, ih, List.map_cons]

theorem ofMembers_eq (ms : List (String × Datum)) :
    ofMembers ms = ms.map fun m => (.scalar none m.1 .plain, ofDatum m.2) := by
  induction ms with
  | nil => rw [ofMembers, List.map_nil]
  | cons m ms ih => rw [ofMembers, ih, List.map_cons]

/-! ### Expansion -/

section

variable {anchored : List (Nat × Node)} {depth budget : Nat}

theorem expand_scalar (text : String) (style : ScalarStyle) :
    expand anchored depth budget (.scalar .absent text style) =
      some (.scalar none text style, budget) := by
  cases depth <;> rfl

/-- Items without aliases leave the budget as it is. -/
theorem mapBudget_itemNodes {ds : List Datum}
    (h : ∀ d ∈ ds, expand anchored depth budget (nodeOf d) = some (ofDatum d, budget)) :
    mapBudget (expand anchored depth) budget (itemNodes ds) = some (ofItems ds, budget) := by
  induction ds with
  | nil => rw [itemNodes, mapBudget, ofItems]
  | cons d ds ih =>
    have hd := h d List.mem_cons_self
    have hds := ih fun e he => h e (List.mem_cons_of_mem _ he)
    rw [itemNodes, mapBudget, hd]
    simp only [hds, Option.map_some, ofItems]

theorem expand_list {ds : List Datum}
    (h : ∀ d ∈ ds, expand anchored depth budget (nodeOf d) = some (ofDatum d, budget)) :
    expand anchored (depth + 1) budget (nodeOf (.list ds)) = some (ofDatum (.list ds), budget) := by
  rw [nodeOf, ofDatum]
  show (mapBudget (expand anchored depth) budget (itemNodes ds)).map _ = _
  rw [mapBudget_itemNodes h]
  rfl

/-- A member is expanded by its two parts. -/
def expandMember (anchored : List (Nat × Node)) (depth budget : Nat) (m : Node × Node) :
    Option ((Yaml × Yaml) × Nat) :=
  match expand anchored depth budget m.1 with
  | none => none
  | some (key, budget) => (expand anchored depth budget m.2).map fun r => ((key, r.1), r.2)

/-- Members without aliases leave the budget as it is. -/
theorem mapBudget_memberNodes {ms : List (String × Datum)}
    (h : ∀ m ∈ ms, expand anchored depth budget (nodeOf m.2) = some (ofDatum m.2, budget)) :
    mapBudget (expandMember anchored depth) budget (memberNodes ms) =
      some (ofMembers ms, budget) := by
  induction ms with
  | nil => rw [memberNodes, mapBudget, ofMembers]
  | cons m ms ih =>
    obtain ⟨name, d⟩ := m
    have hd := h (name, d) List.mem_cons_self
    have hms := ih fun e he => h e (List.mem_cons_of_mem _ he)
    have hmember : expandMember anchored depth budget (.scalar .absent name .plain, nodeOf d) =
        some ((.scalar none name .plain, ofDatum d), budget) := by
      unfold expandMember
      simp only [expand_scalar, hd, Option.map_some]
    rw [memberNodes, mapBudget, hmember]
    simp only [hms, Option.map_some, ofMembers]

theorem expand_record {ms : List (String × Datum)}
    (h : ∀ m ∈ ms, expand anchored depth budget (nodeOf m.2) = some (ofDatum m.2, budget)) :
    expand anchored (depth + 1) budget (nodeOf (.record ms)) =
      some (ofDatum (.record ms), budget) := by
  rw [nodeOf, ofDatum]
  show (mapBudget (expandMember anchored depth) budget (memberNodes ms)).map _ = _
  rw [mapBudget_memberNodes h]
  rfl

/-- A datum without parts is expanded as it stands. -/
theorem expand_leaf {d : Datum} (hd : d.Leaf) (h : d.Readable depth) :
    expand anchored depth budget (nodeOf d) = some (ofDatum d, budget) := by
  cases hd with
  | null | integer | text =>
    rw [nodeOf, ofDatum]
    exact expand_scalar _ _
  | boolean b => cases b <;> rw [nodeOf, ofDatum] <;> exact expand_scalar _ _
  | emptyList =>
    cases depth with
    | zero => exact h.elim
    | succ depth => exact expand_list (List.forall_mem_nil _)
  | emptyRecord =>
    cases depth with
    | zero => exact h.elim
    | succ depth => exact expand_record (List.forall_mem_nil _)

/-- The node of a datum is expanded to the value of the datum. -/
theorem expand_nodeOf {d : Datum} (h : d.Readable depth) :
    expand anchored depth budget (nodeOf d) = some (ofDatum d, budget) := by
  induction h using Datum.Readable.induction with
  | leaf hd h => exact expand_leaf hd h
  | list _ ih => exact expand_list ih
  | record _ ih => exact expand_record ih

end

/-- The text of a readable record with members is read as the value of the record. -/
theorem parse?_text {depth : Nat} (hdepth : depth ≤ depthLimit) {m : String × Datum}
    {ms : List (String × Datum)} (h : (Datum.record (m :: ms)).Readable depth) :
    parse? (text (.record (m :: ms))) = some (ofDatum (.record (m :: ms))) := by
  have hscan := scan?_lines h
  have hnode := Node.ofTokens?_tokensOf (m :: ms)
  have hexpand : ofNode? (nodeOf (.record (m :: ms))) = some (ofDatum (.record (m :: ms))) := by
    unfold ofNode?
    rw [expand_nodeOf (h.le hdepth)]
    rfl
  unfold parse? text
  rw [String.toList_ofList, hscan]
  simp only [Option.bind_eq_bind, Option.bind_some, hnode, hexpand]

/-! ### Values as a source -/

/-- A plain scalar is there unless it is empty or a word for nothing. -/
theorem isPresent_plain {s : String} (hne : s.toList ≠ []) (hnull : isNull s = false) :
    isPresent (.scalar none s .plain) = .ok true := by
  have hempty : s.isEmpty = false := by simpa using hne
  show Except.ok (!s.isEmpty && !isNull s) = Except.ok true
  rw [hempty, hnull]
  rfl

/-- The value of every datum but null is there. -/
theorem isPresent_ofDatum {d : Datum} (hd : d ≠ .null) : isPresent (ofDatum d) = .ok true := by
  cases d with
  | null => exact absurd rfl hd
  | boolean b => cases b <;> rw [ofDatum] <;> rfl
  | integer i =>
    rw [ofDatum]
    refine isPresent_plain ?_ (not_isNull_signedDecimal i)
    rw [String.toList_ofList]
    exact signedDecimal_ne_nil i
  | text s =>
    rw [ofDatum]
    -- Only a plain scalar can be taken for nothing, and no text is plain that would be.
    rcases styleOf_cases s with ⟨hstyle, -⟩ | ⟨hstyle, htext, -⟩ | ⟨hstyle, -⟩ | hstyle
    · rw [hstyle]
      rfl
    · rw [hstyle]
      exact isPresent_plain (ne_nil_of_isTextWhenPlain htext) (not_isNull_of_isTextWhenPlain htext)
    · rw [hstyle]
      rfl
    · rw [hstyle]
      rfl
  | list | record =>
    rw [ofDatum]
    rfl

/-- YAML values stand for data. -/
theorem source_carries : source.Carries ofDatum where
  boolean b := by cases b <;> rw [ofDatum] <;> rfl
  integer signed i hi hsign := by
    rw [ofDatum]
    show (if signed then signed? 64 _ else unsigned? 64 _) = some i
    rw [String.toList_ofList]
    -- Where no sign is wanted the integer has none.
    cases signed with
    | true => exact signed?_signedDecimal hi
    | false => exact unsigned?_signedDecimal hi (hsign.resolve_left nofun)
  text s := by
    rw [ofDatum]
    rfl
  items ds := by
    rw [ofDatum, ← ofItems_eq]
    rfl
  members ms := by
    rw [ofDatum, ofMembers_eq]
    show some ((ms.map _).map _) = _
    rw [List.map_map]
    rfl
  absent := by
    rw [ofDatum]
    rfl
  present _ hd := isPresent_ofDatum hd

end Yaml

namespace Codec

/-- A text with a value is read as what the value is decoded to. -/
theorem ofYaml_of_parse? {τ : Type} (c : Codec τ) {s : String} {v : Yaml}
    (h : Yaml.parse? s = some v) : c.ofYaml s = c.decode Yaml.source v := by
  unfold ofYaml Yaml.ofText
  rw [h]
  rfl

/-- Only a text with a value is read. -/
theorem exists_parse?_of_ofYaml {τ : Type} {c : Codec τ} {s : String} {x : τ}
    (h : c.ofYaml s = .ok x) : ∃ v, Yaml.parse? s = some v ∧ c.decode Yaml.source v = .ok x := by
  cases hparse : Yaml.parse? s with
  | none =>
    unfold ofYaml Yaml.ofText at h
    rw [hparse] at h
    cases h
  | some v =>
    rw [c.ofYaml_of_parse? hparse] at h
    exact ⟨v, rfl, h⟩

/-- What is written as YAML text is read back, if it is a record with members. -/
theorem ofYaml_toYaml {τ : Type} (c : Codec τ) (n : Nat) [c.Lawful n] (hn : n ≤ Yaml.depthLimit)
    {x : τ} {m : String × Datum} {ms : List (String × Datum)}
    (hx : c.encode x = .record (m :: ms)) :
    c.ofYaml (c.toYaml x) = .ok x := by
  have hreadable := Lawful.readable (c := c) (n := n) x
  have hdecode := Lawful.decode_encode (c := c) (n := n) Yaml.source_carries x
  rw [hx] at hreadable hdecode
  have hparse := Yaml.parse?_text hn hreadable
  unfold toYaml
  rw [hx, c.ofYaml_of_parse? hparse]
  exact hdecode

end Codec

end Provisioning
