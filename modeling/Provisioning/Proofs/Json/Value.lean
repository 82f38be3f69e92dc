import Provisioning.Proofs.Json.Scalar

/-! # JSON text is read as what it was written for

    A reader of values is given fuel for its calls. Twice the length of the text is enough: a
    collection is read by two nested calls, of which the inner one is behind the bracket.

    Main statement: `parse?_text`, that the text of a readable datum, in any layout that only
    adds blanks and with any blanks behind it, is read as the value of the datum.
-/

namespace Provisioning.Json

/-! ### Blanks -/

/-- Whether the layout adds nothing but blanks. -/
def Layout.OnlyBlanks (l : Layout) : Prop :=
  (∀ depth, ∀ c ∈ l.newLine depth, isBlank c = true) ∧ ∀ c ∈ l.behindColon, isBlank c = true

theorem oneLine_onlyBlanks : Layout.oneLine.OnlyBlanks := by
  simp [Layout.OnlyBlanks, Layout.oneLine]

theorem indented_onlyBlanks : Layout.indented.OnlyBlanks := by
  refine ⟨?_, ?_⟩
  · intro depth c hc
    rcases List.mem_cons.mp hc with h | h
    · rw [h]; decide
    · rw [List.eq_of_mem_replicate h]; decide
  · intro c hc
    have : c = ' ' := by simpa [Layout.indented] using hc
    rw [this]; decide

theorem skipBlanks_append {bs : List Char} (hbs : ∀ c ∈ bs, isBlank c = true) (cs : List Char) :
    skipBlanks (bs ++ cs) = skipBlanks cs := by
  rw [skipBlanks, List.dropWhile_append_of_pos hbs]
  rfl

theorem skipBlanks_cons {c : Char} (hc : isBlank c = false) (cs : List Char) :
    skipBlanks (c :: cs) = c :: cs := by
  simp [skipBlanks, hc]

theorem readValue_blanks {bs : List Char} (hbs : ∀ c ∈ bs, isBlank c = true) (fuel : Nat)
    (cs : List Char) : readValue fuel (bs ++ cs) = readValue fuel cs := by
  cases fuel with
  | zero => rfl
  | succ fuel => rw [readValue, readValue, skipBlanks_append hbs]

theorem readItems_blanks {bs : List Char} (hbs : ∀ c ∈ bs, isBlank c = true) (fuel : Nat)
    (cs : List Char) : readItems fuel (bs ++ cs) = readItems fuel cs := by
  cases fuel with
  | zero => rfl
  | succ fuel => rw [readItems, readItems, readValue_blanks hbs]

theorem readMembers_blanks {bs : List Char} (hbs : ∀ c ∈ bs, isBlank c = true) (fuel : Nat)
    (cs : List Char) : readMembers fuel (bs ++ cs) = readMembers fuel cs := by
  cases fuel with
  | zero => rfl
  | succ fuel => rw [readMembers, readMembers, skipBlanks_append hbs]

/-! ### What follows a value -/

theorem endsNumber_cons {c : Char} (hdigit : Numeral.digit? 10 c = none)
    (hother : c ≠ '.' ∧ c ≠ 'e' ∧ c ≠ 'E') (cs : List Char) : EndsNumber (c :: cs) := by
  intro d hd
  have : c = d := by simpa using hd
  subst this
  exact ⟨hdigit, hother⟩

theorem endsNumber_blanks {bs : List Char} (hbs : ∀ c ∈ bs, isBlank c = true) {cs : List Char}
    (hcs : EndsNumber cs) : EndsNumber (bs ++ cs) := by
  cases bs with
  | nil => exact hcs
  | cons b bs =>
    have hb : isBlank b = true := hbs b (by simp)
    simp only [isBlank, Bool.or_eq_true, beq_iff_eq] at hb
    rcases hb with ((h | h) | h) | h <;> subst h <;>
      exact endsNumber_cons (by decide) (by decide) _

theorem endsNumber_moreItems {l : Layout} (hl : l.OnlyBlanks) (depth : Nat) (ds : List Datum)
    (rest : List Char) : EndsNumber (moreItems l depth ds ++ rest) := by
  cases ds with
  | nil =>
    rw [moreItems, List.append_assoc]
    exact endsNumber_blanks (hl.1 depth) (endsNumber_cons (by decide) (by decide) _)
  | cons d ds =>
    rw [moreItems, List.cons_append]
    exact endsNumber_cons (by decide) (by decide) _

theorem endsNumber_moreMembers {l : Layout} (hl : l.OnlyBlanks) (depth : Nat)
    (ms : List (String × Datum)) (rest : List Char) :
    EndsNumber (moreMembers l depth ms ++ rest) := by
  cases ms with
  | nil =>
    rw [moreMembers, List.append_assoc]
    exact endsNumber_blanks (hl.1 depth) (endsNumber_cons (by decide) (by decide) _)
  | cons m ms =>
    rw [moreMembers, List.cons_append]
    exact endsNumber_cons (by decide) (by decide) _

/-! ### How a value starts -/

/-- A character that starts a number. -/
def StartsNumber (c : Char) : Prop :=
  c = '-' ∨ ∃ d, d < 10 ∧ c = Nat.digitChar d

theorem StartsNumber.ne {c other : Char} (hc : StartsNumber c) (hdash : other ≠ '-')
    (hdigit : Numeral.digit? 10 other = none) : c ≠ other := by
  rcases hc with h | ⟨d, hd, h⟩
  · rw [h]; exact fun h => hdash h.symm
  · rw [h]; exact Numeral.digitChar_ne (by omega) hd hdigit

theorem StartsNumber.isBlank {c : Char} (hc : StartsNumber c) : isBlank c = false := by
  have hspace : c ≠ ' ' := hc.ne (by decide) (by decide)
  have hline : c ≠ '\n' := hc.ne (by decide) (by decide)
  have htab : c ≠ '\t' := hc.ne (by decide) (by decide)
  have hreturn : c ≠ '\r' := hc.ne (by decide) (by decide)
  simp [Json.isBlank, hspace, hline, htab, hreturn]

theorem exists_signedDecimal_eq_cons (i : Int) :
    ∃ c cs, Numeral.signedDecimal i = c :: cs ∧ StartsNumber c := by
  cases i with
  | ofNat n =>
    obtain ⟨d, more, hd, hcons⟩ := Numeral.exists_toDigits_eq_cons (b := 10) (by omega) n
    exact ⟨_, _, hcons, .inr ⟨d, hd, rfl⟩⟩
  | negSucc n => exact ⟨'-', _, rfl, .inl rfl⟩

/-- A value starts neither with a blank nor with the bracket that closes a list. -/
theorem exists_text_eq_cons (l : Layout) (depth : Nat) (d : Datum) :
    ∃ c cs, text l depth d = c :: cs ∧ isBlank c = false ∧ c ≠ ']' := by
  match d with
  | .null | .boolean true | .boolean false | .text _ | .list [] | .list (_ :: _) | .record []
  | .record (_ :: _) =>
    exact ⟨_, _, by rw [text] <;> rfl, by decide, by decide⟩
  | .integer i =>
    obtain ⟨c, cs, hcons, hc⟩ := exists_signedDecimal_eq_cons i
    exact ⟨c, cs, by rw [text, hcons], hc.isBlank, hc.ne (by decide) (by decide)⟩

/-! ### Values -/

/-- A datum that is read back wherever it stands, given enough fuel. -/
def ReadsBack (l : Layout) (d : Datum) : Prop :=
  ∀ depth fuel rest, 2 * (text l depth d).length ≤ fuel → EndsNumber rest →
    readValue fuel (text l depth d ++ rest) = some (ofDatum d, rest)

/-- The text of a datum is not empty, so there is fuel for a first call. -/
theorem readsBack_of_succ {l : Layout} {d : Datum}
    (h : ∀ depth fuel rest, 2 * (text l depth d).length ≤ fuel + 1 → EndsNumber rest →
      readValue (fuel + 1) (text l depth d ++ rest) = some (ofDatum d, rest)) : ReadsBack l d := by
  intro depth fuel rest hfuel hrest
  cases fuel with
  | zero =>
    obtain ⟨c, cs, hcons, -⟩ := exists_text_eq_cons l depth d
    rw [hcons, List.length_cons] at hfuel
    omega
  | succ fuel => exact h depth fuel rest hfuel hrest

/-- What starts like a number is read as a number. -/
theorem readValue_of_startsNumber {c : Char} (hc : StartsNumber c) (fuel : Nat)
    (cs : List Char) : readValue (fuel + 1) (c :: cs) = readNumber (c :: cs) := by
  have hquote : c ≠ '"' := hc.ne (by decide) (by decide)
  have hsquare : c ≠ '[' := hc.ne (by decide) (by decide)
  have hcurly : c ≠ '\x7b' := hc.ne (by decide) (by decide)
  have hn : c ≠ 'n' := hc.ne (by decide) (by decide)
  have ht : c ≠ 't' := hc.ne (by decide) (by decide)
  have hf : c ≠ 'f' := hc.ne (by decide) (by decide)
  rw [readValue, skipBlanks_cons hc.isBlank]
  split <;> simp_all

theorem readsBack_integer (l : Layout) {i : Int} (hi : FitsWord i) :
    ReadsBack l (.integer i) := by
  refine readsBack_of_succ ?_
  intro depth fuel rest _ hrest
  obtain ⟨c, cs, hcons, hc⟩ := exists_signedDecimal_eq_cons i
  have hread := readNumber_signedDecimal hi hrest
  rw [text, hcons, List.cons_append] at *
  rw [readValue_of_startsNumber hc, hread, ofDatum]

theorem readsBack_text (l : Layout) (s : String) : ReadsBack l (.text s) := by
  refine readsBack_of_succ ?_
  intro depth fuel rest _ _
  have hread := readString_stringText s rest
  rw [text, stringText, List.cons_append, List.append_assoc, List.singleton_append, readValue,
    skipBlanks_cons (by decide)]
  simp [hread, ofString?, ofDatum]

/-- A datum without parts is read back. -/
theorem readsBack_of_leaf (l : Layout) {d : Datum} (hd : d.Leaf) : ReadsBack l d := by
  cases hd with
  | integer hi => exact readsBack_integer l hi
  | text s => exact readsBack_text l s
  | null | emptyList | emptyRecord =>
    refine readsBack_of_succ ?_
    intro depth fuel rest _ _
    simp [text, readValue, skipBlanks, isBlank, ofDatum, ofItems, ofMembers]
  | boolean b =>
    refine readsBack_of_succ ?_
    intro depth fuel rest _ _
    cases b <;> simp [text, readValue, skipBlanks, isBlank, ofDatum]

/-- One or more items are read back if each of them is. -/
theorem readItems_text {l : Layout} (hl : l.OnlyBlanks) (depth : Nat) (rest : List Char)
    (ds : List Datum) : ∀ (d : Datum) (fuel : Nat), ReadsBack l d → (∀ e ∈ ds, ReadsBack l e) →
    2 * (text l (depth + 1) d ++ moreItems l depth ds).length ≤ fuel →
    readItems fuel (text l (depth + 1) d ++ (moreItems l depth ds ++ rest))
      = some (ofItems (d :: ds), rest) := by
  -- The induction is on the items behind the first one.
  induction ds with
  | nil =>
    intro d fuel hd _ hfuel
    obtain ⟨fuel, rfl⟩ : ∃ n, fuel = n + 1 := ⟨fuel - 1, by simp [moreItems] at hfuel; omega⟩
    have hvalue := hd (depth + 1) fuel _ (by simp [moreItems] at hfuel; omega)
      (endsNumber_moreItems hl depth [] rest)
    have hend : skipBlanks (moreItems l depth [] ++ rest) = ']' :: rest := by
      rw [moreItems, List.append_assoc, skipBlanks_append (hl.1 depth)]
      exact skipBlanks_cons (by decide) _
    rw [readItems, hvalue]
    simp [hend, ofItems]
  | cons e ds ih =>
    intro d fuel hd hds hfuel
    obtain ⟨fuel, rfl⟩ : ∃ n, fuel = n + 1 := ⟨fuel - 1, by simp [moreItems] at hfuel; omega⟩
    have hvalue := hd (depth + 1) fuel _ (by simp [moreItems] at hfuel; omega)
      (endsNumber_moreItems hl depth (e :: ds) rest)
    have hmore := ih e fuel (hds e (by simp)) (fun x hx => hds x (by simp [hx]))
      (by simp [moreItems] at hfuel ⊢; omega)
    rw [readItems, hvalue]
    simp only [moreItems, List.cons_append, List.append_assoc]
    rw [skipBlanks_cons (by decide)]
    simp [readItems_blanks (hl.1 (depth + 1)), hmore, ofItems]

/-- The text of a member is read as its name and its value, whichever mark comes behind it. -/
theorem readMembers_memberText {l : Layout} (hl : l.OnlyBlanks) (depth fuel : Nat)
    (name : String) {d : Datum} {behind : List Char} (hd : ReadsBack l d)
    (hbehind : EndsNumber behind) (hfuel : 2 * (text l (depth + 1) d).length ≤ fuel)
    (rest : List Char) :
    (skipBlanks behind = '\x7d' :: rest →
      readMembers (fuel + 1) (memberText l depth name d ++ behind)
        = some ([(some name, ofDatum d)], rest)) ∧
    (skipBlanks behind = ',' :: rest →
      readMembers (fuel + 1) (memberText l depth name d ++ behind)
        = (readMembers fuel rest).map fun r => ((some name, ofDatum d) :: r.1, r.2)) := by
  have hread := readString_stringText name
    (':' :: (l.behindColon ++ (text l (depth + 1) d ++ behind)))
  have hvalue := hd (depth + 1) fuel behind hfuel hbehind
  have hsplit : memberText l depth name d ++ behind = '"' :: (name.toList.flatMap charText
      ++ '"' :: ':' :: (l.behindColon ++ (text l (depth + 1) d ++ behind))) := by
    simp [memberText, stringText]
  rw [hsplit, readMembers, skipBlanks_cons (by decide)]
  simp only [hread]
  rw [skipBlanks_cons (by decide)]
  simp only [readValue_blanks hl.2, hvalue]
  refine ⟨?_, ?_⟩ <;> intro h <;> simp [h]

/-- One or more members are read back if the value of each of them is. -/
theorem readMembers_text {l : Layout} (hl : l.OnlyBlanks) (depth : Nat) (rest : List Char)
    (ms : List (String × Datum)) : ∀ (name : String) (d : Datum) (fuel : Nat), ReadsBack l d →
    (∀ m ∈ ms, ReadsBack l m.2) →
    2 * (memberText l depth name d ++ moreMembers l depth ms).length ≤ fuel →
    readMembers fuel (memberText l depth name d ++ (moreMembers l depth ms ++ rest))
      = some (ofMembers ((name, d) :: ms), rest) := by
  induction ms with
  | nil =>
    intro name d fuel hd _ hfuel
    simp only [memberText, moreMembers, List.length_append, List.length_cons] at hfuel
    obtain ⟨fuel, rfl⟩ : ∃ n, fuel = n + 1 := ⟨fuel - 1, by omega⟩
    have hend : skipBlanks (moreMembers l depth [] ++ rest) = '\x7d' :: rest := by
      rw [moreMembers, List.append_assoc, skipBlanks_append (hl.1 depth)]
      exact skipBlanks_cons (by decide) _
    have hmember := readMembers_memberText hl depth fuel name hd
      (endsNumber_moreMembers hl depth [] rest) (by omega) rest
    rw [hmember.1 hend]
    simp [ofMembers]
  | cons m ms ih =>
    intro name d fuel hd hms hfuel
    obtain ⟨other, e⟩ := m
    simp only [memberText, moreMembers, List.length_append, List.length_cons] at hfuel
    obtain ⟨fuel, rfl⟩ : ∃ n, fuel = n + 1 := ⟨fuel - 1, by omega⟩
    have hmore := ih other e fuel (hms (other, e) (by simp)) (fun x hx => hms x (by simp [hx]))
      (by simp only [memberText, List.length_append, List.length_cons]; omega)
    have hcomma : skipBlanks (moreMembers l depth ((other, e) :: ms) ++ rest)
        = ',' :: (l.newLine (depth + 1)
          ++ (memberText l depth other e ++ (moreMembers l depth ms ++ rest))) := by
      rw [moreMembers, List.cons_append, skipBlanks_cons (by decide)]
      simp
    have hmember := readMembers_memberText hl depth fuel name hd
      (endsNumber_moreMembers hl depth ((other, e) :: ms) rest) (by omega)
    rw [(hmember _).2 hcomma, readMembers_blanks (hl.1 (depth + 1)), hmore]
    simp [ofMembers]

/-- A list is read back if each of its items is. -/
theorem readsBack_list {l : Layout} (hl : l.OnlyBlanks) {d : Datum} {ds : List Datum}
    (hd : ReadsBack l d) (hds : ∀ e ∈ ds, ReadsBack l e) : ReadsBack l (.list (d :: ds)) := by
  refine readsBack_of_succ ?_
  intro depth fuel rest hfuel _
  simp only [text, List.length_cons, List.length_append] at hfuel
  have hread := readItems_text hl depth rest ds d fuel hd hds (by simp; omega)
  obtain ⟨c, cs, hcons, hblank, hclose⟩ := exists_text_eq_cons l (depth + 1) d
  rw [text]
  simp only [List.cons_append, List.append_assoc]
  rw [readValue, skipBlanks_cons (by decide)]
  -- The reader looks for the bracket of an empty list before it reads items.
  rw [hcons] at hread ⊢
  simp only [List.cons_append] at hread ⊢
  simp only [skipBlanks_append (hl.1 (depth + 1)), skipBlanks_cons hblank]
  split
  · next heq => exact absurd (List.cons.inj heq).1 hclose
  · rw [hread, ofDatum]
    rfl

/-- A record is read back if the value of each of its members is. -/
theorem readsBack_record {l : Layout} (hl : l.OnlyBlanks) (name : String) {d : Datum}
    {ms : List (String × Datum)} (hd : ReadsBack l d) (hms : ∀ m ∈ ms, ReadsBack l m.2) :
    ReadsBack l (.record ((name, d) :: ms)) := by
  refine readsBack_of_succ ?_
  intro depth fuel rest hfuel _
  simp only [text, List.length_cons, List.length_append] at hfuel
  have hread := readMembers_text hl depth rest ms name d fuel hd hms (by simp; omega)
  obtain ⟨cs, hcs⟩ : ∃ cs, memberText l depth name d = '"' :: cs :=
    ⟨_, by rw [memberText, stringText, List.cons_append]⟩
  rw [text]
  simp only [List.cons_append, List.append_assoc]
  rw [readValue, skipBlanks_cons (by decide)]
  rw [hcs, List.cons_append] at hread ⊢
  simp only [skipBlanks_append (hl.1 (depth + 1)),
    skipBlanks_cons (show isBlank '"' = false by decide)]
  simp [hread, ofDatum]

/-- Every readable datum is read back. -/
theorem readsBack_of_readable {l : Layout} (hl : l.OnlyBlanks) {bound : Nat} {d : Datum}
    (h : d.Readable bound) : ReadsBack l d := by
  induction h using Datum.Readable.induction with
  | leaf hd => exact readsBack_of_leaf l hd
  | list _ ih =>
    exact readsBack_list hl (ih _ List.mem_cons_self) fun e he => ih e (List.mem_cons_of_mem _ he)
  | record _ ih =>
    exact readsBack_record hl _ (ih _ List.mem_cons_self)
      fun m hm => ih m (List.mem_cons_of_mem _ hm)

/-! ### Whole texts -/

/-- The text of a readable datum is read as its value, also with blanks behind it. -/
theorem parse?_text {l : Layout} (hl : l.OnlyBlanks) {bound : Nat} {d : Datum}
    (hd : d.Readable bound) {bs : List Char} (hbs : ∀ c ∈ bs, isBlank c = true) :
    parse? (String.ofList (text l 0 d ++ bs)) = some (ofDatum d) := by
  have hend : EndsNumber bs := by
    have hnil : EndsNumber [] := nofun
    have h := endsNumber_blanks hbs hnil
    rwa [List.append_nil] at h
  have hread := readsBack_of_readable hl hd 0 (2 * (text l 0 d ++ bs).length + 2) bs
    (by simp only [List.length_append]; omega) hend
  have hskip : skipBlanks bs = [] := by
    have h := skipBlanks_append hbs []
    rwa [List.append_nil] at h
  unfold parse?
  rw [String.toList_ofList]
  simp only [hread, hskip, List.isEmpty_nil, if_true]

end Provisioning.Json
