import Mathlib.Tactic.SplitIfs
import Provisioning.Proofs.Json.Value

/-! # Every value that is read has a text

    A text spells a value if it is read as the value wherever it stands, given enough fuel. Of each
    value that the reader has found in some text there is a spelling, and arrays and objects are
    spelled if their parts are. So what is put together from parts of texts stands in a text again.
-/

namespace Provisioning.Json

/-! ### Numbers -/

/-- What follows does not go on with digits. -/
def EndsDigits (more : List Char) : Prop :=
  ∀ c ∈ more.head?, Numeral.digit? 10 c = none

theorem EndsNumber.endsDigits {more : List Char} (h : EndsNumber more) : EndsDigits more :=
  fun c hc => (h c hc).1

/-- A text that starts with a mark goes on with nothing but the mark. -/
theorem endsDigits_append {a more : List Char} (ha : EndsDigits a) (hmore : EndsDigits more) :
    EndsDigits (a ++ more) := by
  cases a with
  | nil => exact hmore
  | cons c a => exact ha

theorem readDigits_of_endsDigits {more : List Char} (h : EndsDigits more) :
    readDigits more = ([], more) := by
  cases more with
  | nil => rfl
  | cons c more => simp [readDigits, h c rfl]

/-- Digits that are read are read again in front of anything else that does not go on with them. -/
theorem exists_readDigits {cs : List Char} {ds : List Nat} {rest : List Char}
    (h : readDigits cs = (ds, rest)) :
    ∃ a, cs = a ++ rest ∧ a.length = ds.length ∧
      ∀ more, EndsDigits more → readDigits (a ++ more) = (ds, more) := by
  induction cs generalizing ds with
  | nil =>
    obtain ⟨rfl, rfl⟩ := Prod.mk.inj h
    exact ⟨[], rfl, rfl, fun _ => readDigits_of_endsDigits⟩
  | cons c cs ih =>
    unfold readDigits at h
    cases hc : Numeral.digit? 10 c with
    | none =>
      rw [hc] at h
      obtain ⟨rfl, rfl⟩ := Prod.mk.inj h
      exact ⟨[], rfl, rfl, fun _ => readDigits_of_endsDigits⟩
    | some d =>
      rw [hc] at h
      obtain ⟨rfl, hrest⟩ := Prod.mk.inj h
      have htail : readDigits cs = ((readDigits cs).1, rest) := by rw [← hrest]
      obtain ⟨a, hcs, hlength, hread⟩ := ih htail
      refine ⟨c :: a, by rw [hcs, List.cons_append], by simp [hlength], ?_⟩
      intro more hmore
      simp [readDigits, hc, hread more hmore]

theorem startsNumber_of_digit? {c : Char} {d : Nat} (h : Numeral.digit? 10 c = some d) :
    StartsNumber c := by
  have hvalue : ∀ n : Fin 10, Char.ofNat (48 + n) = Nat.digitChar n := by decide
  have hrange : 48 ≤ c.toNat ∧ c.toNat ≤ 57 := by
    unfold Numeral.digit? Numeral.hexDigit? at h
    obtain ⟨hvalue, hlt⟩ := Option.filter_eq_some_iff.mp h
    have hlt : d < 10 := by simpa using hlt
    split_ifs at hvalue with hdecimal
    · exact ⟨hdecimal.1, hdecimal.2⟩
    · have := Option.some.inj hvalue
      omega
    · have := Option.some.inj hvalue
      omega
  refine .inr ⟨c.toNat - 48, by omega, ?_⟩
  have hofNat := hvalue ⟨c.toNat - 48, by omega⟩
  rw [← hofNat]
  show c = Char.ofNat (48 + (c.toNat - 48))
  rw [Nat.add_sub_cancel' hrange.1, Char.ofNat_toNat]

theorem exists_readWhole {cs : List Char} {ds : List Nat} {rest : List Char}
    (h : readWhole cs = some (ds, rest)) :
    ∃ c a, StartsNumber c ∧ c ≠ '-' ∧
      ∀ more, EndsDigits more → readWhole (c :: a ++ more) = some (ds, more) := by
  -- Whether digits are those of a whole number does not depend on what follows them.
  have hsame : ∀ more, readDigits cs = (ds, rest) → ∀ cs', readDigits cs' = (ds, more) →
      readWhole cs' = some (ds, more) := by
    intro more hcs cs' hcs'
    unfold readWhole at h ⊢
    rw [hcs] at h
    rw [hcs']
    match ds with
    | [] => cases h
    | 0 :: _ :: _ => cases h
    | [0] | [_ + 1] | (_ + 1) :: _ :: _ => rfl
  have hdigits : readDigits cs = (ds, rest) := by
    unfold readWhole at h
    split at h
    · cases h
    · cases h
    · exact Option.some.inj h
  obtain ⟨a, hcs, hlength, hread⟩ := exists_readDigits hdigits
  cases a with
  | nil =>
    have hnil : ds = [] := List.length_eq_zero_iff.mp hlength.symm
    unfold readWhole at h
    rw [hdigits, hnil] at h
    cases h
  | cons c a =>
    have hfirst : ∃ d, Numeral.digit? 10 c = some d := by
      have hshort := hread [] nofun
      cases hc : Numeral.digit? 10 c with
      | some d => exact ⟨d, rfl⟩
      | none =>
        simp only [List.append_nil, readDigits, hc] at hshort
        have hnil := (Prod.mk.inj hshort).1
        rw [← hnil] at hlength
        cases hlength
    obtain ⟨d, hd⟩ := hfirst
    refine ⟨c, a, startsNumber_of_digit? hd, ?_, ?_⟩
    · rintro rfl
      have hnone : Numeral.digit? 10 '-' = none := by decide
      rw [hnone] at hd
      cases hd
    · intro more hmore
      exact hsame more hdigits _ (hread more hmore)

theorem exists_readFraction {cs : List Char} {fraction : Option (List Nat)} {rest : List Char}
    (h : readFraction cs = some (fraction, rest)) :
    ∃ a, (∀ c ∈ a.head?, c = '.') ∧ ∀ more, EndsDigits more → (∀ c ∈ more.head?, c ≠ '.') →
      readFraction (a ++ more) = some (fraction, more) := by
  unfold readFraction at h
  split at h
  · next cs' =>
    split at h
    · cases h
    · next digits rest' _ hdigits =>
      obtain ⟨rfl, rfl⟩ := Prod.mk.inj (Option.some.inj h)
      obtain ⟨a, hcs, hlength, hread⟩ := exists_readDigits hdigits
      refine ⟨'.' :: a, by simp, ?_⟩
      intro more hmore _
      unfold readFraction
      simp only [List.cons_append, hread more hmore]
  · obtain ⟨rfl, rfl⟩ := Prod.mk.inj (Option.some.inj h)
    refine ⟨[], nofun, ?_⟩
    intro more _ hpoint
    unfold readFraction
    split
    · next heq =>
      obtain rfl : more = '.' :: _ := heq
      exact absurd rfl (hpoint '.' rfl)
    · rfl

/-- The sign of an exponent in front of its digits. -/
theorem exists_readSign {cs : List Char} {ds : List Nat} {rest : List Char}
    (h : readDigits (readSign cs).2 = (ds, rest)) (hds : ds ≠ []) :
    ∃ a, ∀ more, EndsDigits more → (readSign (a ++ more)).1 = (readSign cs).1 ∧
      readDigits (readSign (a ++ more)).2 = (ds, more) := by
  obtain ⟨a, hcs, hlength, hread⟩ := exists_readDigits h
  have hne : a ≠ [] := by
    rintro rfl
    exact hds (List.length_eq_zero_iff.mp hlength.symm)
  unfold readSign at hcs ⊢
  split at hcs
  · exact ⟨'+' :: a, fun more hmore => ⟨rfl, hread more hmore⟩⟩
  · exact ⟨'-' :: a, fun more hmore => ⟨rfl, hread more hmore⟩⟩
  · next hplus hminus =>
    -- There is no sign, so the text starts with the first digit.
    obtain ⟨c, a, rfl⟩ := List.exists_cons_of_ne_nil hne
    have hcs : cs = c :: (a ++ rest) := hcs
    refine ⟨c :: a, ?_⟩
    intro more hmore
    have hfirst : readSign (c :: a ++ more) = (false, c :: a ++ more) := by
      unfold readSign
      split
      · next heq => exact absurd (hcs.trans (by rw [(List.cons.inj heq).1])) (hplus _)
      · next heq => exact absurd (hcs.trans (by rw [(List.cons.inj heq).1])) (hminus _)
      · rfl
    unfold readSign at hfirst
    rw [hfirst]
    exact ⟨rfl, hread more hmore⟩

theorem exists_readExponent {cs : List Char} {exponent : Option (Bool × List Nat)}
    {rest : List Char} (h : readExponent cs = some (exponent, rest)) :
    ∃ a, (∀ c ∈ a.head?, c = 'e' ∨ c = 'E') ∧ ∀ more, EndsNumber more →
      readExponent (a ++ more) = some (exponent, more) := by
  cases cs with
  | nil =>
    obtain ⟨rfl, rfl⟩ := Prod.mk.inj (Option.some.inj h)
    exact ⟨[], nofun, fun more hmore => readExponent_of_endsNumber hmore⟩
  | cons c cs =>
    by_cases hc : c = 'e' ∨ c = 'E'
    · rw [readExponent, if_pos hc] at h
      split at h
      · cases h
      · next digits rest' hne hdigits =>
        obtain ⟨rfl, rfl⟩ := Prod.mk.inj (Option.some.inj h)
        obtain ⟨a, hread⟩ := exists_readSign hdigits (fun hnil => hne (by rw [hnil]))
        refine ⟨c :: a, by simpa using hc, ?_⟩
        intro more hmore
        obtain ⟨hsign, hdigits'⟩ := hread more hmore.endsDigits
        unfold readExponent
        simp only [List.cons_append, hc, if_true, hdigits', hsign]
    · rw [readExponent, if_neg hc] at h
      obtain ⟨rfl, rfl⟩ := Prod.mk.inj (Option.some.inj h)
      exact ⟨[], nofun, fun more hmore => readExponent_of_endsNumber hmore⟩

/-- The parts of a number behind its sign. -/
def readParts (negative : Bool) (cs : List Char) : Option (NumberText × List Char) := do
  let (whole, cs) ← readWhole cs
  let (fraction, cs) ← readFraction cs
  let (exponent, cs) ← readExponent cs
  return (⟨negative, whole, fraction, exponent⟩, cs)

theorem exists_readParts {negative : Bool} {cs : List Char} {t : NumberText} {rest : List Char}
    (h : readParts negative cs = some (t, rest)) :
    ∃ c a, StartsNumber c ∧ c ≠ '-' ∧ ∀ more, EndsNumber more →
      readParts negative (c :: a ++ more) = some (t, more) := by
  unfold readParts at h
  obtain ⟨⟨whole, cs₁⟩, hwhole, h⟩ := Option.bind_eq_some_iff.mp h
  obtain ⟨⟨fraction, cs₂⟩, hfraction, h⟩ := Option.bind_eq_some_iff.mp h
  obtain ⟨⟨exponent, cs₃⟩, hexponent, h⟩ := Option.bind_eq_some_iff.mp h
  obtain ⟨rfl, -⟩ := Prod.mk.inj (Option.some.inj h)
  obtain ⟨c, a, hc, hdash, hreadWhole⟩ := exists_readWhole hwhole
  obtain ⟨a₁, hpoint, hreadFraction⟩ := exists_readFraction hfraction
  obtain ⟨a₂, hmark, hreadExponent⟩ := exists_readExponent hexponent
  refine ⟨c, a ++ (a₁ ++ a₂), hc, hdash, ?_⟩
  intro more hmore
  -- Behind each part stands the mark of a further one, or what follows the number.
  have hdigits₂ : EndsDigits a₂ := by
    intro d hd
    rcases hmark d hd with rfl | rfl <;> decide
  have hdigits₁ : EndsDigits a₁ := by
    intro d hd
    rw [hpoint d hd]
    decide
  have hend₂ : EndsDigits (a₂ ++ more) := endsDigits_append hdigits₂ hmore.endsDigits
  have hnoPoint : ∀ d ∈ (a₂ ++ more).head?, d ≠ '.' := by
    cases a₂ with
    | nil => exact fun d hd => (hmore d hd).2.1
    | cons e a₂ =>
      intro d hd
      obtain rfl : e = d := by simpa using hd
      rcases hmark e rfl with rfl | rfl <;> decide
  have hwhole' := hreadWhole _ (endsDigits_append hdigits₁ hend₂)
  have hfraction' := hreadFraction _ hend₂ hnoPoint
  have hexponent' := hreadExponent more hmore
  have htext : c :: (a ++ (a₁ ++ a₂)) ++ more = c :: a ++ (a₁ ++ (a₂ ++ more)) := by simp
  unfold readParts
  rw [htext, hwhole']
  simp only [Option.bind_eq_bind, Option.bind_some, hfraction', hexponent']
  rfl

/-- A number that is read has a text, which is read as the number in front of anything else that
does not go on with it. -/
theorem exists_readNumber {cs : List Char} {j : Json} {rest : List Char}
    (h : readNumber cs = some (j, rest)) :
    ∃ c a, StartsNumber c ∧ ∀ more, EndsNumber more →
      readNumber (c :: a ++ more) = some (j, more) := by
  unfold readNumber at h
  obtain ⟨⟨t, rest'⟩, htext, hj⟩ := Option.map_eq_some_iff.mp h
  obtain ⟨rfl, -⟩ := Prod.mk.inj hj
  by_cases hdash : ∃ cs', cs = '-' :: cs'
  · obtain ⟨cs', rfl⟩ := hdash
    have hparts : readParts true cs' = some (t, rest') := htext
    obtain ⟨c, a, -, -, hread⟩ := exists_readParts hparts
    refine ⟨'-', c :: a, .inl rfl, ?_⟩
    intro more hmore
    have hnumber : readNumberText ('-' :: c :: a ++ more) = some (t, more) := hread more hmore
    unfold readNumber
    rw [hnumber]
    rfl
  · have hunsigned : ∀ cs : List Char, (¬ ∃ cs', cs = '-' :: cs') →
        readNumberText cs = readParts false cs := by
      intro cs hcs
      unfold readNumberText
      split
      next heq =>
        split at heq
        · exact absurd ⟨_, rfl⟩ hcs
        · obtain ⟨rfl, rfl⟩ := Prod.mk.inj heq
          rfl
    rw [hunsigned cs hdash] at htext
    obtain ⟨c, a, hc, hne, hread⟩ := exists_readParts htext
    refine ⟨c, a, hc, ?_⟩
    intro more hmore
    have hno : ¬ ∃ cs', c :: a ++ more = '-' :: cs' := by
      rintro ⟨cs', heq⟩
      exact hne (List.cons.inj heq).1
    unfold readNumber
    rw [hunsigned _ hno, hread more hmore]
    rfl

/-! ### Spellings -/

/-- A text that is read as the value wherever it stands. -/
structure Spells (a : List Char) (j : Json) : Prop where
  starts : ∃ c cs, a = c :: cs ∧ isBlank c = false ∧ c ≠ ']'
  reads : ∀ fuel more, 2 * a.length ≤ fuel → EndsNumber more →
    readValue fuel (a ++ more) = some (j, more)

/-- A value without parts is spelled as its datum is written. -/
theorem exists_spells_leaf {d : Datum} (hd : d.Leaf) : ∃ a, Spells a (ofDatum d) :=
  ⟨text .oneLine 0 d, exists_text_eq_cons .oneLine 0 d, readsBack_of_leaf .oneLine hd 0⟩

/-- There is fuel for a first call, since no spelling is empty. -/
theorem Spells.of_succ {a : List Char} {j : Json}
    (hstarts : ∃ c cs, a = c :: cs ∧ isBlank c = false ∧ c ≠ ']')
    (h : ∀ fuel more, 2 * a.length ≤ fuel + 1 → EndsNumber more →
      readValue (fuel + 1) (a ++ more) = some (j, more)) : Spells a j := by
  refine ⟨hstarts, ?_⟩
  intro fuel more hfuel hmore
  cases fuel with
  | zero =>
    obtain ⟨c, cs, rfl, -⟩ := hstarts
    rw [List.length_cons] at hfuel
    omega
  | succ fuel => exact h fuel more hfuel hmore

/-- Half of a surrogate pair. -/
def halfPair : List Char := ['"', '\\', 'u', 'd', '8', '0', '0', '"']

theorem readString_halfPair (more : List Char) :
    readString (halfPair.tail ++ more) = some (none, more) := by
  have hcode : hex4? 'd' '8' '0' '0' = some 0xd800 := by decide
  simp [halfPair, readString, readCodes, hcode, joinCodes]

theorem spells_halfPair : Spells halfPair .meaningless := by
  refine Spells.of_succ ⟨_, _, rfl, by decide, by decide⟩ ?_
  intro fuel more _ _
  have hread := readString_halfPair more
  unfold halfPair at hread ⊢
  simp only [List.cons_append, List.tail_cons, List.nil_append] at hread ⊢
  rw [readValue, skipBlanks_cons (by decide)]
  simp [hread, ofString?]

theorem exists_spells_of_readNumber {cs : List Char} {j : Json} {rest : List Char}
    (h : readNumber cs = some (j, rest)) : ∃ a, Spells a j := by
  obtain ⟨c, a, hc, hread⟩ := exists_readNumber h
  have hclose : c ≠ ']' := hc.ne (by decide) (by decide)
  refine ⟨c :: a, Spells.of_succ ⟨c, a, rfl, hc.isBlank, hclose⟩ ?_⟩
  intro fuel more _ hmore
  rw [List.cons_append, readValue_of_startsNumber hc]
  exact hread more hmore

/-- The name of a member is spelled as a string. -/
theorem exists_name (name? : Option String) :
    ∃ a, ∀ more, readString (a ++ '"' :: more) = some (name?, more) := by
  cases name? with
  | none =>
    refine ⟨['\\', 'u', 'd', '8', '0', '0'], ?_⟩
    intro more
    exact readString_halfPair more
  | some name => exact ⟨name.toList.flatMap charText, readString_stringText name⟩

/-! ### Arrays and objects -/

/-- The mark behind an item or a member ends a number. -/
theorem endsNumber_mark {c : Char} (hc : c = ',' ∨ c = ']' ∨ c = '\x7d') (cs : List Char) :
    EndsNumber (c :: cs) := by
  rcases hc with rfl | rfl | rfl <;> exact endsNumber_cons (by decide) (by decide) cs

/-- One or more items are spelled with the bracket behind them. -/
theorem exists_items {vs : List Json} (v : Json) (h : ∀ w ∈ v :: vs, ∃ a, Spells a w) :
    ∃ b, (∃ c cs, b = c :: cs ∧ isBlank c = false ∧ c ≠ ']') ∧
      ∀ fuel more, 2 * b.length ≤ fuel → readItems fuel (b ++ more) = some (v :: vs, more) := by
  -- On the items behind the first: they decide whether a comma or the bracket follows it.
  induction vs generalizing v with
  | nil =>
    obtain ⟨a, ha⟩ := h v List.mem_cons_self
    obtain ⟨c, cs, rfl, hblank, hclose⟩ := ha.starts
    refine ⟨c :: cs ++ [']'], ⟨c, cs ++ [']'], rfl, hblank, hclose⟩, ?_⟩
    intro fuel more hfuel
    simp only [List.length_append, List.length_singleton] at hfuel
    obtain ⟨fuel, rfl⟩ : ∃ n, fuel = n + 1 := ⟨fuel - 1, by omega⟩
    have hread := ha.reads fuel (']' :: more) (by omega) (endsNumber_mark (by decide) _)
    rw [List.append_assoc, List.singleton_append, readItems, hread]
    simp [skipBlanks_cons (show isBlank ']' = false by decide)]
  | cons w vs ih =>
    obtain ⟨a, ha⟩ := h v List.mem_cons_self
    obtain ⟨b, -, hb⟩ := ih w fun x hx => h x (List.mem_cons_of_mem _ hx)
    obtain ⟨c, cs, rfl, hblank, hclose⟩ := ha.starts
    refine ⟨c :: cs ++ ',' :: b, ⟨c, cs ++ ',' :: b, rfl, hblank, hclose⟩, ?_⟩
    intro fuel more hfuel
    simp only [List.length_append, List.length_cons] at hfuel
    obtain ⟨fuel, rfl⟩ : ∃ n, fuel = n + 1 := ⟨fuel - 1, by omega⟩
    have hread := ha.reads fuel (',' :: (b ++ more)) (by simp; omega)
      (endsNumber_mark (by decide) _)
    have hmore := hb fuel more (by omega)
    have htext : c :: cs ++ ',' :: b ++ more = c :: cs ++ ',' :: (b ++ more) := by simp
    rw [htext, readItems, hread]
    simp [skipBlanks_cons (show isBlank ',' = false by decide), hmore]

theorem exists_spells_array {vs : List Json} (h : ∀ v ∈ vs, ∃ a, Spells a v) :
    ∃ a, Spells a (.array vs) := by
  cases vs with
  | nil => exact exists_spells_leaf .emptyList
  | cons v vs =>
    obtain ⟨b, ⟨c, cs, rfl, hblank, hclose⟩, hb⟩ := exists_items v h
    refine ⟨'[' :: c :: cs, Spells.of_succ ⟨_, _, rfl, by decide, by decide⟩ ?_⟩
    intro fuel more hfuel _
    have hread := hb fuel more (by simp only [List.length_cons] at hfuel ⊢; omega)
    simp only [List.cons_append] at hread ⊢
    rw [readValue, skipBlanks_cons (by decide)]
    simp only [skipBlanks_cons hblank]
    split
    · next heq => exact absurd (List.cons.inj heq).1 hclose
    · rw [hread]
      rfl

/-- One or more members are spelled with the bracket behind them. -/
theorem exists_members {ms : List (Option String × Json)} (m : Option String × Json)
    (h : ∀ m' ∈ m :: ms, ∃ a, Spells a m'.2) :
    ∃ b, ∀ fuel more, 2 * ('"' :: b).length ≤ fuel →
      readMembers fuel ('"' :: b ++ more) = some (m :: ms, more) := by
  obtain ⟨name?, v⟩ := m
  obtain ⟨name, hname⟩ := exists_name name?
  obtain ⟨a, ha⟩ := h (name?, v) List.mem_cons_self
  -- As for items, on the members behind the first.
  induction ms generalizing name? v name a with
  | nil =>
    refine ⟨name ++ '"' :: ':' :: (a ++ ['\x7d']), ?_⟩
    intro fuel more hfuel
    simp only [List.length_append, List.length_cons, List.length_nil] at hfuel
    obtain ⟨fuel, rfl⟩ : ∃ n, fuel = n + 1 := ⟨fuel - 1, by omega⟩
    have hread := ha.reads fuel ('\x7d' :: more) (by omega) (endsNumber_mark (by decide) _)
    have htext : '"' :: (name ++ '"' :: ':' :: (a ++ ['\x7d'])) ++ more =
        '"' :: (name ++ '"' :: ':' :: (a ++ '\x7d' :: more)) := by simp
    rw [htext, readMembers, skipBlanks_cons (by decide)]
    simp only [hname]
    rw [skipBlanks_cons (by decide)]
    simp [hread, skipBlanks_cons (show isBlank '\x7d' = false by decide)]
  | cons m' ms ih =>
    obtain ⟨name?', v'⟩ := m'
    obtain ⟨name', hname'⟩ := exists_name name?'
    have hrest : ∀ m'' ∈ (name?', v') :: ms, ∃ a, Spells a m''.2 := fun x hx =>
      h x (List.mem_cons_of_mem _ hx)
    obtain ⟨a', ha'⟩ := hrest (name?', v') List.mem_cons_self
    obtain ⟨b, hb⟩ := ih name?' v' hrest name' hname' a' ha'
    refine ⟨name ++ '"' :: ':' :: (a ++ ',' :: '"' :: b), ?_⟩
    intro fuel more hfuel
    simp only [List.length_append, List.length_cons] at hfuel
    obtain ⟨fuel, rfl⟩ : ∃ n, fuel = n + 1 := ⟨fuel - 1, by omega⟩
    have hread := ha.reads fuel (',' :: ('"' :: b ++ more)) (by omega)
      (endsNumber_mark (by decide) _)
    have hmore := hb fuel more (by simp only [List.length_cons]; omega)
    have htext : '"' :: (name ++ '"' :: ':' :: (a ++ ',' :: '"' :: b)) ++ more =
        '"' :: (name ++ '"' :: ':' :: (a ++ ',' :: ('"' :: b ++ more))) := by simp
    rw [htext, readMembers, skipBlanks_cons (by decide)]
    simp only [hname]
    rw [skipBlanks_cons (by decide)]
    simp only [hread]
    rw [skipBlanks_cons (by decide)]
    simp only [hmore, Option.map_some]

theorem exists_spells_object {ms : List (Option String × Json)}
    (h : ∀ m ∈ ms, ∃ a, Spells a m.2) : ∃ a, Spells a (.object ms) := by
  cases ms with
  | nil => exact exists_spells_leaf .emptyRecord
  | cons m ms =>
    obtain ⟨b, hb⟩ := exists_members m h
    refine ⟨'\x7b' :: '"' :: b, Spells.of_succ ⟨_, _, rfl, by decide, by decide⟩ ?_⟩
    intro fuel more hfuel _
    have hread := hb fuel more (by simp only [List.length_cons] at hfuel ⊢; omega)
    simp only [List.cons_append] at hread ⊢
    rw [readValue, skipBlanks_cons (by decide)]
    simp [skipBlanks_cons (show isBlank '"' = false by decide), hread]

/-! ### Values that are read -/

/-- The items of an array and the values in an object. -/
def parts : Json → List Json
  | .array vs => vs
  | .object ms => ms.map Prod.snd
  | _ => []

/-- A value that can be spelled, as can its parts. -/
def Spelled (j : Json) : Prop :=
  (∃ a, Spells a j) ∧ ∀ v ∈ j.parts, ∃ a, Spells a v

/-- A value without parts can be spelled if there is a text for it. -/
theorem spelled_of_parts_eq_nil {j : Json} (h : ∃ a, Spells a j) (hparts : j.parts = []) :
    Spelled j := by
  refine ⟨h, ?_⟩
  rw [hparts]
  exact List.forall_mem_nil _

theorem spelled_array {vs : List Json} (h : ∀ v ∈ vs, ∃ a, Spells a v) : Spelled (.array vs) :=
  ⟨exists_spells_array h, h⟩

theorem spelled_object {ms : List (Option String × Json)} (h : ∀ m ∈ ms, ∃ a, Spells a m.2) :
    Spelled (.object ms) := by
  refine ⟨exists_spells_object h, ?_⟩
  intro v hv
  obtain ⟨m, hm, rfl⟩ := List.mem_map.mp hv
  exact h m hm

theorem spelled_number {cs : List Char} {j : Json} {rest : List Char}
    (h : readNumber cs = some (j, rest)) : Spelled j := by
  have hvalue : ∀ t : NumberText, t.value.parts = [] := by
    intro t
    unfold NumberText.value
    dsimp only
    repeat' split
    all_goals rfl
  obtain ⟨⟨t, rest'⟩, -, hj⟩ := Option.map_eq_some_iff.mp h
  obtain ⟨rfl, -⟩ := Prod.mk.inj hj
  exact spelled_of_parts_eq_nil (exists_spells_of_readNumber h) (hvalue t)

/-- What is read with this fuel can be spelled: a value, the items of an array and the members of
an object. -/
structure ReadsSpelled (fuel : Nat) : Prop where
  value : ∀ {cs j rest}, readValue fuel cs = some (j, rest) → Spelled j
  items : ∀ {cs vs rest}, readItems fuel cs = some (vs, rest) → ∀ v ∈ vs, ∃ a, Spells a v
  members : ∀ {cs ms rest}, readMembers fuel cs = some (ms, rest) →
    ∀ m ∈ ms, ∃ a, Spells a m.2

section

variable {fuel : Nat} (ih : ReadsSpelled fuel) {cs rest : List Char}

include ih

theorem ReadsSpelled.value_succ {j : Json} (h : readValue (fuel + 1) cs = some (j, rest)) :
    Spelled j := by
  unfold readValue at h
  split at h
  · -- A string, with or without a text.
    obtain ⟨⟨s?, rest'⟩, -, heq⟩ := Option.map_eq_some_iff.mp h
    obtain ⟨rfl, -⟩ := Prod.mk.inj heq
    cases s? with
    | none => exact spelled_of_parts_eq_nil ⟨_, spells_halfPair⟩ rfl
    | some s => exact spelled_of_parts_eq_nil (exists_spells_leaf (.text s)) rfl
  · split at h
    · obtain ⟨rfl, -⟩ := Prod.mk.inj (Option.some.inj h)
      exact spelled_array (List.forall_mem_nil _)
    · obtain ⟨⟨vs, rest'⟩, hvs, heq⟩ := Option.map_eq_some_iff.mp h
      obtain ⟨rfl, -⟩ := Prod.mk.inj heq
      exact spelled_array (ih.items hvs)
  · split at h
    · obtain ⟨rfl, -⟩ := Prod.mk.inj (Option.some.inj h)
      exact spelled_object (List.forall_mem_nil _)
    · obtain ⟨⟨ms, rest'⟩, hms, heq⟩ := Option.map_eq_some_iff.mp h
      obtain ⟨rfl, -⟩ := Prod.mk.inj heq
      exact spelled_object (ih.members hms)
  · obtain ⟨rfl, -⟩ := Prod.mk.inj (Option.some.inj h)
    exact spelled_of_parts_eq_nil (exists_spells_leaf .null) rfl
  · obtain ⟨rfl, -⟩ := Prod.mk.inj (Option.some.inj h)
    exact spelled_of_parts_eq_nil (exists_spells_leaf (.boolean true)) rfl
  · obtain ⟨rfl, -⟩ := Prod.mk.inj (Option.some.inj h)
    exact spelled_of_parts_eq_nil (exists_spells_leaf (.boolean false)) rfl
  · exact spelled_number h

theorem ReadsSpelled.items_succ {vs : List Json} (h : readItems (fuel + 1) cs = some (vs, rest)) :
    ∀ v ∈ vs, ∃ a, Spells a v := by
  unfold readItems at h
  split at h
  · cases h
  · next j rest' hj =>
    have hfirst := (ih.value hj).1
    split at h
    · obtain ⟨rfl, -⟩ := Prod.mk.inj (Option.some.inj h)
      exact List.forall_mem_singleton.mpr hfirst
    · obtain ⟨⟨vs', rest''⟩, hvs, heq⟩ := Option.map_eq_some_iff.mp h
      obtain ⟨rfl, -⟩ := Prod.mk.inj heq
      exact List.forall_mem_cons.mpr ⟨hfirst, ih.items hvs⟩
    · cases h

theorem ReadsSpelled.members_succ {ms : List (Option String × Json)}
    (h : readMembers (fuel + 1) cs = some (ms, rest)) : ∀ m ∈ ms, ∃ a, Spells a m.2 := by
  unfold readMembers at h
  split at h
  · split at h
    · cases h
    · split at h
      · split at h
        · cases h
        · next j rest' hj =>
          have hfirst := (ih.value hj).1
          split at h
          · obtain ⟨rfl, -⟩ := Prod.mk.inj (Option.some.inj h)
            exact List.forall_mem_singleton.mpr hfirst
          · obtain ⟨⟨ms', rest''⟩, hms, heq⟩ := Option.map_eq_some_iff.mp h
            obtain ⟨rfl, -⟩ := Prod.mk.inj heq
            exact List.forall_mem_cons.mpr ⟨hfirst, ih.members hms⟩
          · cases h
      · cases h
  · cases h

end

/-- The three readers call one another with less fuel, so the induction is on the fuel, for all of
them at once. -/
theorem readsSpelled (fuel : Nat) : ReadsSpelled fuel := by
  induction fuel with
  | zero => exact ⟨nofun, nofun, nofun⟩
  | succ fuel ih => exact ⟨ih.value_succ, ih.items_succ, ih.members_succ⟩

/-! ### Values with text -/

/-- Whether some text is read as the value. -/
def HasText (j : Json) : Prop :=
  ∃ s, parse? s = some j

theorem HasText.spelled {j : Json} (h : HasText j) : Spelled j := by
  obtain ⟨s, hs⟩ := h
  simp only [parse?] at hs
  split at hs
  · next j' rest hread =>
    split at hs
    · obtain rfl := Option.some.inj hs
      exact (readsSpelled _).value hread
    · cases hs
  · cases hs

theorem Spells.hasText {a : List Char} {j : Json} (h : Spells a j) : HasText j := by
  refine ⟨String.ofList a, ?_⟩
  have hread := h.reads (2 * a.length + 2) [] (by omega) nofun
  rw [List.append_nil] at hread
  simp only [parse?, String.toList_ofList, hread]
  rfl

/-- A value with text can be spelled, and only such a value. -/
theorem hasText_iff {j : Json} : HasText j ↔ ∃ a, Spells a j :=
  ⟨fun h => h.spelled.1, fun ⟨_, ha⟩ => ha.hasText⟩

/-- An array has a text if its items have texts, and only then. -/
theorem hasText_array_iff {vs : List Json} : HasText (.array vs) ↔ ∀ v ∈ vs, HasText v := by
  simp only [hasText_iff]
  constructor
  · intro h
    exact (hasText_iff.mpr h).spelled.2
  · exact exists_spells_array

/-- An object has a text if its values have texts, and only then. -/
theorem hasText_object_iff {ms : List (Option String × Json)} :
    HasText (.object ms) ↔ ∀ m ∈ ms, HasText m.2 := by
  simp only [hasText_iff]
  constructor
  · intro h m hm
    exact (hasText_iff.mpr h).spelled.2 m.2 (List.mem_map.mpr ⟨m, hm, rfl⟩)
  · exact exists_spells_object

/-! ### Values in values with text -/

/-- A place in a value that holds any value with a text, if the whole has one. -/
structure HoldsText (around : Json → Json) : Prop where
  value : ∀ {v}, HasText (around v) → HasText v
  other : ∀ {v w}, HasText (around v) → HasText w → HasText (around w)

theorem HoldsText.refl : HoldsText id :=
  ⟨id, fun _ hw => hw⟩

theorem HoldsText.comp {around around' : Json → Json} (h : HoldsText around)
    (h' : HoldsText around') : HoldsText fun v => around (around' v) :=
  ⟨fun hv => h'.value (h.value hv), fun hv hw => h.other hv (h'.other (h.value hv) hw)⟩

theorem holdsText_item (vs ws : List Json) : HoldsText fun v => .array (vs ++ v :: ws) := by
  refine ⟨?_, ?_⟩
  · intro v h
    exact hasText_array_iff.mp h v (by simp)
  · intro v w h hw
    have h := hasText_array_iff.mp h
    simp only [List.forall_mem_append, List.forall_mem_cons] at h
    refine hasText_array_iff.mpr ?_
    simp only [List.forall_mem_append, List.forall_mem_cons]
    exact ⟨h.1, hw, h.2.2⟩

theorem holdsText_member (a b : List (Option String × Json)) (name? : Option String) :
    HoldsText fun v => .object (a ++ (name?, v) :: b) := by
  refine ⟨?_, ?_⟩
  · intro v h
    exact hasText_object_iff.mp h (name?, v) (by simp)
  · intro v w h hw
    have h := hasText_object_iff.mp h
    simp only [List.forall_mem_append, List.forall_mem_cons] at h
    refine hasText_object_iff.mpr ?_
    simp only [List.forall_mem_append, List.forall_mem_cons]
    exact ⟨h.1, hw, h.2.2⟩

end Provisioning.Json
