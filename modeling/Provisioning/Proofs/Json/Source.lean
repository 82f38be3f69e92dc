import Provisioning.Codec.Text
import Provisioning.Proofs.Codec
import Provisioning.Proofs.Json.Value

/-! # Data through JSON

    JSON values carry data, wherever they come from. So what a lawful codec writes as JSON text is
    read back by it, in either layout.
-/

namespace Provisioning

namespace Json

theorem ofItems_eq (ds : List Datum) : ofItems ds = ds.map ofDatum := by
  induction ds with
  | nil => rfl
  | cons d ds ih => rw [ofItems, ih, List.map_cons]

theorem ofMembers_eq (ms : List (String × Datum)) :
    ofMembers ms = ms.map fun m => (some m.1, ofDatum m.2) := by
  induction ms with
  | nil => rfl
  | cons m ms ih => rw [ofMembers, ih, List.map_cons]

/-- JSON values stand for data. -/
theorem source_carries (tooManyItems : Nat → DecodeError) :
    (source tooManyItems).Carries ofDatum where
  boolean _ := rfl
  integer _ _ _ _ := rfl
  text _ := rfl
  items ds := by
    show some (ofItems ds) = _
    rw [ofItems_eq]
  members ms := by
    show some ((ofMembers ms).map _) = _
    rw [ofMembers_eq, List.map_map]
    rfl
  absent := rfl
  present d hd := by
    cases d with
    | null => exact absurd rfl hd
    | boolean | integer | text | list | record => rfl

end Json

namespace Codec

variable {τ : Type} (c : Codec τ) (n : Nat) [c.Lawful n]

include n

/-- The text of a value is that of its data. -/
theorem parse?_toJson (x : τ) : Json.parse? (c.toJson x) = some (Json.ofDatum (c.encode x)) := by
  have hnone : ∀ c ∈ ([] : List Char), Json.isBlank c = true := nofun
  have h := Json.parse?_text Json.oneLine_onlyBlanks (Lawful.readable (c := c) (n := n) x) hnone
  rwa [List.append_nil] at h

/-- What is written as JSON text with a layout of blanks is read back, also with blanks behind
it. -/
theorem ofJson_text_append {l : Json.Layout} (hl : l.OnlyBlanks) (x : τ) {bs : List Char}
    (hbs : ∀ c ∈ bs, Json.isBlank c = true) :
    c.ofJson (String.ofList (Json.text l 0 (c.encode x) ++ bs)) = .ok x := by
  have hparse := Json.parse?_text hl (Lawful.readable (c := c) (n := n) x) hbs
  have hdecode := Lawful.decode_encode (c := c) (n := n)
    (Json.source_carries fun _ => .trailingItems) x
  unfold ofJson Json.ofText
  rw [hparse]
  exact hdecode

/-- What is written as JSON text with a layout of blanks is read back. -/
theorem ofJson_text {l : Json.Layout} (hl : l.OnlyBlanks) (x : τ) :
    c.ofJson (String.ofList (Json.text l 0 (c.encode x))) = .ok x := by
  have hnone : ∀ c ∈ ([] : List Char), Json.isBlank c = true := nofun
  have h := ofJson_text_append c n hl x hnone
  rwa [List.append_nil] at h

/-- What is written as JSON text on one line is read back. -/
theorem ofJson_toJson (x : τ) : c.ofJson (c.toJson x) = .ok x :=
  ofJson_text c n Json.oneLine_onlyBlanks x

/-- What is written as JSON text is read back as stable data. -/
theorem ofStableText_toJson (x : τ) : c.ofStableText (c.toJson x) = .ok x := by
  unfold ofStableText
  rw [ofJson_toJson c n x]

end Codec

end Provisioning
