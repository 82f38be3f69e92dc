import Provisioning.Proofs.Yaml.Scan
import Provisioning.Yaml.Node

/-! # Tokens are read as the node that they were made for

    A collection is read by two nested calls, and there is a token for each of its parts. So fuel
    for twice the number of tokens and two more calls is enough.

    Main statement: `ofTokens?_tokensOf`, that the tokens of a record are read as its node.
-/

namespace Provisioning.Yaml

/-! ### The nodes of data -/

mutual

/-- The node of a datum. -/
def nodeOf : Datum → Node
  | .null => .scalar .absent "null" .plain
  | .boolean true => .scalar .absent "true" .plain
  | .boolean false => .scalar .absent "false" .plain
  | .integer i => .scalar .absent (String.ofList (Numeral.signedDecimal i)) .plain
  | .text s => .scalar .absent s (styleOf s)
  | .list items => .sequence .absent (itemNodes items)
  | .record members => .mapping .absent (memberNodes members)

/-- The nodes of items. -/
def itemNodes : List Datum → List Node
  | [] => []
  | d :: rest => nodeOf d :: itemNodes rest

/-- The nodes of members. -/
def memberNodes : List (String × Datum) → List (Node × Node)
  | [] => []
  | (name, d) :: rest => (.scalar .absent name .plain, nodeOf d) :: memberNodes rest

end

namespace Node

/-! ### First tokens -/

/-- No datum starts with a token that ends a part of a collection. -/
theorem exists_tokensOf_eq_cons (unindented : Bool) (d : Datum) :
    ∃ t ts, tokensOf unindented d = t :: ts ∧
      t ∉ [Token.key, .value, .blockEnd] ∧ (unindented = false → t ≠ .blockEntry) := by
  cases d with
  | null | integer | text =>
    rw [tokensOf]
    exact ⟨_, _, rfl, by simp, by simp⟩
  | boolean b => cases b <;> rw [tokensOf] <;> exact ⟨_, _, rfl, by simp, by simp⟩
  | list ds =>
    cases ds with
    | nil =>
      rw [tokensOf]
      exact ⟨_, _, rfl, by simp, by simp⟩
    | cons d ds =>
      rw [tokensOf]
      cases unindented with
      | false => exact ⟨_, _, rfl, by simp, by simp⟩
      | true => exact ⟨_, _, rfl, by simp, by simp⟩
  | record ms =>
    cases ms with
    | nil =>
      rw [tokensOf]
      exact ⟨_, _, rfl, by simp, by simp⟩
    | cons m ms =>
      rw [tokensOf]
      exact ⟨_, _, rfl, by simp, by simp⟩

/-- A datum that is there is not left out. -/
theorem unlessBefore_tokensOf (stops : List Token) (unindented : Bool) (d : Datum)
    (hstops : ∀ t ∈ stops, t ∈ [Token.key, .value, .blockEnd] ∨
      unindented = false ∧ t = .blockEntry)
    (read : List Token → Option (Node × List Token)) (rest : List Token) :
    unlessBefore stops read (tokensOf unindented d ++ rest) =
      read (tokensOf unindented d ++ rest) := by
  obtain ⟨t, ts, hcons, hends, hentry⟩ := exists_tokensOf_eq_cons unindented d
  have hnot : t ∉ stops := by
    intro hmem
    rcases hstops t hmem with h | ⟨hindented, h⟩
    · exact hends h
    · exact hentry hindented h
  unfold unlessBefore
  rw [hcons, List.cons_append, List.head?_cons, Option.any_some, if_neg (by simpa using hnot)]

/-! ### Reading -/

@[simp] theorem ofScalar_absent : ofScalar .absent = .absent := rfl

/-- With the given fuel data and their parts are read back. -/
structure Reads (handles : Handles) (fuel : Nat) : Prop where
  node : ∀ (unindented : Bool) (d : Datum) (rest : List Token),
    2 * (tokensOf unindented d).length + 2 ≤ fuel →
    (unindented = true → rest.head? ≠ some .blockEntry) →
    read handles unindented fuel (tokensOf unindented d ++ rest) = some (nodeOf d, rest)
  blockItems : ∀ (ds : List Datum) (rest : List Token),
    2 * (itemTokens ds).length + 1 ≤ fuel →
    readBlockItems handles fuel (itemTokens ds ++ .blockEnd :: rest) = some (itemNodes ds, rest)
  unindentedItems : ∀ (ds : List Datum) (rest : List Token),
    2 * (itemTokens ds).length + 1 ≤ fuel → rest.head? ≠ some .blockEntry →
    readUnindentedItems handles fuel (itemTokens ds ++ rest) = some (itemNodes ds, rest)
  blockMembers : ∀ (ms : List (String × Datum)) (rest : List Token),
    2 * (memberTokens ms).length + 1 ≤ fuel →
    readBlockMembers handles fuel (memberTokens ms ++ .blockEnd :: rest) =
      some (memberNodes ms, rest)

section

variable {handles : Handles} {fuel : Nat} (h : Reads handles fuel)

include h

theorem Reads.node_succ (unindented : Bool) (d : Datum) (rest : List Token)
    (hfuel : 2 * (tokensOf unindented d).length + 2 ≤ fuel + 1)
    (hrest : unindented = true → rest.head? ≠ some .blockEntry) :
    read handles unindented (fuel + 1) (tokensOf unindented d ++ rest) = some (nodeOf d, rest) := by
  cases d with
  | null => simp [tokensOf, read, readProperties, nodeOf]
  | boolean b => cases b <;> simp [tokensOf, read, readProperties, nodeOf]
  | integer i => simp [tokensOf, read, readProperties, nodeOf]
  | text s => simp [tokensOf, read, readProperties, nodeOf]
  | list ds =>
    cases ds with
    | nil =>
      simp only [tokensOf, List.length_cons, List.length_nil] at hfuel
      obtain ⟨fuel, rfl⟩ : ∃ n, fuel = n + 1 := ⟨fuel - 1, by omega⟩
      simp [tokensOf, read, readProperties, readFlowItems, nodeOf, itemNodes]
    | cons d ds =>
      cases unindented with
      | false =>
        have hitems := h.blockItems (d :: ds) rest
        simp only [tokensOf, itemTokens, Bool.false_eq_true, if_false, List.length_cons,
          List.length_append, List.length_nil] at hfuel hitems
        have hread := hitems (by omega)
        simp only [List.cons_append, List.append_assoc] at hread
        simp [tokensOf, read, readProperties, hread, nodeOf]
      | true =>
        -- Items that are not indented end at the first token that is no dash.
        have hitems := h.unindentedItems (d :: ds) rest
        simp only [tokensOf, itemTokens, if_true, List.length_cons] at hfuel hitems
        have hread := hitems (by omega) (hrest rfl)
        simp only [List.cons_append, List.append_assoc] at hread
        simp [tokensOf, read, readProperties, hread, nodeOf]
  | record ms =>
    cases ms with
    | nil =>
      simp only [tokensOf, List.length_cons, List.length_nil] at hfuel
      obtain ⟨fuel, rfl⟩ : ∃ n, fuel = n + 1 := ⟨fuel - 1, by omega⟩
      simp [tokensOf, read, readProperties, readFlowMembers, nodeOf, memberNodes]
    | cons m ms =>
      have hmembers := h.blockMembers (m :: ms) rest
      simp only [tokensOf, memberTokens, List.length_cons, List.length_append, List.length_nil]
        at hfuel hmembers
      have hread := hmembers (by omega)
      simp only [List.append_assoc] at hread
      simp [tokensOf, read, readProperties, hread, nodeOf]

theorem Reads.blockItems_succ (ds : List Datum) (rest : List Token)
    (hfuel : 2 * (itemTokens ds).length + 1 ≤ fuel + 1) :
    readBlockItems handles (fuel + 1) (itemTokens ds ++ .blockEnd :: rest) =
      some (itemNodes ds, rest) := by
  cases ds with
  | nil => simp [itemTokens, readBlockItems, itemNodes]
  | cons d ds =>
    simp only [itemTokens, List.length_cons, List.length_append] at hfuel
    have hitem := h.node false d (itemTokens ds ++ .blockEnd :: rest) (by omega) (by simp)
    have hitems := h.blockItems ds rest (by omega)
    have hpresent := unlessBefore_tokensOf [.blockEntry, .blockEnd] false d (by simp)
      (read handles false fuel) (itemTokens ds ++ .blockEnd :: rest)
    simp [itemTokens, readBlockItems, hpresent, hitem, hitems, itemNodes]

theorem Reads.unindentedItems_succ (ds : List Datum) (rest : List Token)
    (hfuel : 2 * (itemTokens ds).length + 1 ≤ fuel + 1) (hrest : rest.head? ≠ some .blockEntry) :
    readUnindentedItems handles (fuel + 1) (itemTokens ds ++ rest) = some (itemNodes ds, rest) := by
  cases ds with
  | nil =>
    rw [itemTokens, List.nil_append, readUnindentedItems, itemNodes]
    rintro more rfl
    exact hrest rfl
  | cons d ds =>
    simp only [itemTokens, List.length_cons, List.length_append] at hfuel
    have hitem := h.node false d (itemTokens ds ++ rest) (by omega) (by simp)
    have hitems := h.unindentedItems ds rest (by omega) hrest
    have hpresent := unlessBefore_tokensOf [.blockEntry, .key, .value, .blockEnd] false d
      (by simp) (read handles false fuel) (itemTokens ds ++ rest)
    simp [itemTokens, readUnindentedItems, hpresent, hitem, hitems, itemNodes]

theorem Reads.blockMembers_succ (ms : List (String × Datum)) (rest : List Token)
    (hfuel : 2 * (memberTokens ms).length + 1 ≤ fuel + 1) :
    readBlockMembers handles (fuel + 1) (memberTokens ms ++ .blockEnd :: rest) =
      some (memberNodes ms, rest) := by
  cases ms with
  | nil => simp [memberTokens, readBlockMembers, memberNodes]
  | cons m ms =>
    obtain ⟨name, d⟩ := m
    simp only [memberTokens, keyTokens, List.length_cons, List.length_append, List.length_nil]
      at hfuel
    -- What follows a value is the key of the next member or the end of the block.
    have hnext : (memberTokens ms ++ .blockEnd :: rest).head? ≠ some .blockEntry := by
      cases ms with
      | nil => simp [memberTokens]
      | cons m ms => simp [memberTokens, keyTokens]
    have hvalue := h.node true d (memberTokens ms ++ .blockEnd :: rest) (by omega) fun _ => hnext
    have hmembers := h.blockMembers ms rest (by omega)
    have hpresent := unlessBefore_tokensOf [.key, .value, .blockEnd] true d (by simp)
      (read handles true fuel) (memberTokens ms ++ .blockEnd :: rest)
    -- The key is a node of one token, which every call with fuel reads.
    have hkey : unlessBefore [.key, .value, .blockEnd] (read handles true fuel)
        (.scalar name .plain :: .value ::
          (tokensOf true d ++ (memberTokens ms ++ .blockEnd :: rest))) =
          some (.scalar .absent name .plain, .value ::
            (tokensOf true d ++ (memberTokens ms ++ .blockEnd :: rest))) := by
      obtain ⟨fuel, rfl⟩ : ∃ n, fuel = n + 1 := ⟨fuel - 1, by omega⟩
      simp [unlessBefore, read, readProperties]
    simp [memberTokens, keyTokens, readBlockMembers, hkey, valueUnlessBefore, hpresent, hvalue,
      hmembers, memberNodes]

end

/-- Fuel for all the tokens reads data and their parts back. -/
theorem reads (handles : Handles) (fuel : Nat) : Reads handles fuel := by
  induction fuel with
  | zero => exact ⟨by omega, by omega, by omega, by omega⟩
  | succ fuel ih =>
    exact ⟨ih.node_succ, ih.blockItems_succ, ih.unindentedItems_succ, ih.blockMembers_succ⟩

/-- The tokens of a record are read as its node. -/
theorem ofTokens?_tokensOf (ms : List (String × Datum)) :
    ofTokens? (tokensOf false (.record ms)) = some (nodeOf (.record ms)) := by
  have hread := (reads standardHandles (readingFuel (tokensOf false (.record ms)))).node false
    (.record ms) [] (Nat.le_refl _) nofun
  rw [List.append_nil] at hread
  have hdocument : readDocument (tokensOf false (.record ms)) =
      some (nodeOf (.record ms), []) := by
    rw [← hread]
    cases ms with
    | nil => simp [tokensOf, readDocument]
    | cons m ms => simp [tokensOf, readDocument]
  unfold ofTokens?
  rw [hdocument]
  rfl

end Node

end Provisioning.Yaml
