import Provisioning.Proofs.Numeral
import Provisioning.Proofs.Yaml.Cursor

/-! # Scalars in quotes

    In single quotes a text stands as it is, but for quotes, which are doubled, and for the blanks
    in front of lines behind a separator, which the reader drops. In double quotes everything
    beyond the printable characters of a line is escaped. In both cases a run of blanks is read
    as a gap and stands for itself.
-/

namespace Provisioning.Yaml

/-! ### Escapes -/

theorem hexDigit?_toUpper {d : Nat} (hd : d < 16) :
    Numeral.hexDigit? (Numeral.hexDigit d).toUpper = some d := by
  have hall : ∀ e : Fin 16, Numeral.hexDigit? (Numeral.hexDigit e).toUpper = some e.val := by
    decide
  exact hall ⟨d, hd⟩

theorem length_hexDigits (width n : Nat) : (hexDigits width n).length = width := by
  induction width generalizing n with
  | zero => rfl
  | succ width ih => simp [hexDigits, ih]

/-- The last digits of a number are read behind those of `value`. -/
theorem hexValue?_hexDigits (width n value : Nat) (rest : List Char) :
    hexValue? (hexDigits width n ++ rest) value =
      hexValue? rest (value * Numeral.wordValues (4 * width) +
        n % Numeral.wordValues (4 * width)) := by
  induction width generalizing n rest with
  | zero =>
    have hone : Numeral.wordValues (4 * 0) = 1 := rfl
    rw [hone, Nat.mod_one, Nat.mul_one, Nat.add_zero]
    rfl
  | succ width ih =>
    have hdigit := hexDigit?_toUpper (Nat.mod_lt n (by decide : 0 < 16))
    have hwords : Numeral.wordValues (4 * (width + 1)) = Numeral.wordValues (4 * width) * 16 :=
      Nat.pow_add 2 (4 * width) 4
    generalize Numeral.wordValues (4 * width) = words at ih hwords
    have hvalue : (value * words + n / 16 % words) * 16 + n % 16 =
        value * (words * 16) + n % (words * 16) := by
      have hmod : n % (words * 16) = n % 16 + 16 * (n / 16 % words) := by
        rw [Nat.mul_comm, Nat.mod_mul]
      rw [hmod, Nat.add_mul, Nat.mul_assoc]
      omega
    rw [hwords, hexDigits, List.append_assoc, ih, List.singleton_append, hexValue?, hdigit]
    simp only [Option.bind_some, hvalue]

/-- The letter of an escape stands for its character. -/
theorem shortEscape?_escapeLetter {c letter : Char} (h : escapeLetter? c = some letter) :
    shortEscape? letter = some c.toNat ∧ isBreak letter = false := by
  unfold escapeLetter? at h
  split at h
  case h_16 => cases h
  all_goals
    next heq =>
      rw [heq]
      cases h
      decide

/-- A code point that is written with enough digits is read back. -/
theorem readEscape_hexDigits {letter c : Char} {width : Nat} (hshort : shortEscape? letter = none)
    (hlength : escapeLength? letter = some width) (hc : c.toNat < Numeral.wordValues (4 * width))
    (rest : List Char) :
    readEscape (letter :: (hexDigits width c.toNat ++ rest)) = some (c, width + 1) := by
  have htake : (hexDigits width c.toNat ++ rest).take width = hexDigits width c.toNat := by
    rw [List.take_left' (length_hexDigits width c.toNat)]
  have hvalue : hexValue? (hexDigits width c.toNat) 0 = some c.toNat := by
    have hread := hexValue?_hexDigits width c.toNat 0 []
    rw [List.append_nil, Nat.zero_mul, Nat.zero_add, Nat.mod_eq_of_lt hc] at hread
    exact hread
  have hlong : ¬ (hexDigits width c.toNat ++ rest).length < width := by
    rw [List.length_append, length_hexDigits]
    omega
  have hvalid : c.toNat.isValidChar := c.valid
  unfold readEscape
  simp only [hshort, hlength, if_neg hlong, htake, hvalue, if_pos hvalid, Char.ofNat_toNat]

/-- An escape is read back as its character. -/
theorem exists_escape (c : Char) : ∃ letter more, escape c = '\\' :: letter :: more ∧
    isBreak letter = false ∧
    ∀ rest, readEscape (letter :: (more ++ rest)) = some (c, more.length + 1) := by
  unfold escape
  simp only
  split
  · next letter hletter =>
    obtain ⟨hshort, hbreak⟩ := shortEscape?_escapeLetter hletter
    refine ⟨letter, [], rfl, hbreak, ?_⟩
    intro rest
    simp [readEscape, hshort]
  · by_cases hbyte : c.toNat ≤ 0xff
    · rw [if_pos hbyte]
      refine ⟨'x', hexDigits 2 c.toNat, rfl, by decide, ?_⟩
      rw [length_hexDigits]
      exact readEscape_hexDigits rfl rfl (Nat.lt_of_le_of_lt hbyte (by decide))
    · rw [if_neg hbyte]
      by_cases hplane : c.toNat ≤ 0xffff
      · rw [if_pos hplane]
        refine ⟨'u', hexDigits 4 c.toNat, rfl, by decide, ?_⟩
        rw [length_hexDigits]
        exact readEscape_hexDigits rfl rfl (Nat.lt_of_le_of_lt hplane (by decide))
      · rw [if_neg hplane]
        refine ⟨'U', hexDigits 8 c.toNat, rfl, by decide, ?_⟩
        rw [length_hexDigits]
        have hlimit : c.toNat < Numeral.wordValues (4 * 8) := by
          rcases c.valid with hlow | ⟨-, hhigh⟩
          · exact Nat.lt_trans hlow (by decide)
          · exact Nat.lt_trans hhigh (by decide)
        exact readEscape_hexDigits rfl rfl hlimit

/-! ### Double quotes -/

/-- A character that is written as it is inside double quotes. -/
theorem doubleQuotedChar_cases (d : Char) :
    (doubleQuotedChar d = escape d) ∨
      (doubleQuotedChar d = [d] ∧ isPrintable d = true ∧ isBreak d = false ∧ d ≠ '"' ∧
        d ≠ '\\') := by
  unfold doubleQuotedChar
  by_cases h : (!isPrintable d || isBreak d || d == '"' || d == '\\') = true
  · rw [if_pos h]
    exact .inl rfl
  · right
    rw [if_neg h]
    simp only [Bool.or_eq_true, Bool.not_eq_true', beq_iff_eq, not_or, Bool.not_eq_false,
      Bool.not_eq_true] at h
    exact ⟨rfl, h.1.1.1, h.1.1.2, h.1.2, h.2⟩

theorem flatMap_spaces {sp : List Char} (hsp : ∀ c ∈ sp, isSpace c = true) :
    sp.flatMap doubleQuotedChar = sp := by
  induction sp with
  | nil => rfl
  | cons c sp ih =>
    obtain rfl : c = ' ' := by simpa [isSpace] using hsp c List.mem_cons_self
    rw [List.flatMap_cons, ih fun d hd => hsp d (List.mem_cons_of_mem _ hd)]
    rfl

/-- Only a blank is written so that a gap starts with it. -/
theorem startsGap_flatMap {cs : List Char} (hcs : cs.head?.any isSpace = false)
    (rest : List Char) :
    startsGap (cs.flatMap doubleQuotedChar ++ '"' :: rest) = false := by
  cases cs with
  | nil => simp [startsGap, isBlank, isBreak, isSeparator]
  | cons d cs =>
    rw [List.flatMap_cons]
    rcases doubleQuotedChar_cases d with hescape | ⟨hchar, hprint, hbreak, -, -⟩
    · obtain ⟨letter, more, heq, -, -⟩ := exists_escape d
      rw [hescape, heq]
      simp [startsGap, isBlank, isBreak, isSeparator]
    · have hblank : isBlank d = false := by
        rw [isBlank_eq_isSpace hprint]
        simpa using hcs
      rw [hchar]
      simp [startsGap, hblank, hbreak]

/-- A character that is neither the quote nor a backslash is read as it is, or starts a gap. -/
theorem readDoubleQuoted_cons (fuel : Nat) {c : Cursor}
    (hmarker : ¬ (c.column = 0 ∧ atDocumentMarker c.rest = true)) {d : Char} {rest : List Char}
    (hc : c.rest = d :: rest) (hquote : d ≠ '"') (hslash : d ≠ '\\') :
    readDoubleQuoted (fuel + 1) c =
      if isBlank d || isBreak d then
        match readGap 0 c with
        | none => none
        | some (gap, c) => (readDoubleQuoted fuel c).map fun r => (gap.folded ++ r.1, r.2)
      else (readDoubleQuoted fuel (c.skip 1)).map fun r => (d :: r.1, r.2) := by
  rw [readDoubleQuoted, if_neg hmarker, hc]
  split
  · next heq => cases heq
  · next heq => exact absurd (List.cons.inj heq).1 hquote
  · next heq => exact absurd (List.cons.inj heq).1 hslash
  · next heq =>
    obtain ⟨rfl, -⟩ := List.cons.inj heq
    rfl

/-- A gap is read as what it stands for. -/
theorem readDoubleQuoted_gap (fuel : Nat) {c : Cursor}
    (hmarker : ¬ (c.column = 0 ∧ atDocumentMarker c.rest = true)) {w rest : List Char}
    (hne : w ≠ []) (hw : ∀ d ∈ w, isBlank d = true ∨ isBreak d = true) (hc : c.rest = w ++ rest)
    {gap : Gap} {c' : Cursor} (hgap : readGap 0 c = some (gap, c')) :
    readDoubleQuoted (fuel + 1) c =
      (readDoubleQuoted fuel c').map fun r => (gap.folded ++ r.1, r.2) := by
  obtain ⟨d, w, rfl⟩ := List.exists_cons_of_ne_nil hne
  have hd := hw d List.mem_cons_self
  have hquote : d ≠ '"' := by
    rintro rfl
    exact absurd hd (by decide)
  have hslash : d ≠ '\\' := by
    rintro rfl
    exact absurd hd (by decide)
  rw [readDoubleQuoted_cons fuel hmarker hc hquote hslash, if_pos (by simpa using hd), hgap]

/-- With the given fuel a text in double quotes is read back. -/
def ReadsDouble (fuel : Nat) (rest cs : List Char) : Prop :=
  ∀ c : Cursor, c.rest.length < fuel → 0 < c.column →
    c.rest = cs.flatMap doubleQuotedChar ++ '"' :: rest →
    ∃ c', readDoubleQuoted fuel c = some (cs, c') ∧ c'.rest = rest ∧ c'.line = c.line

section

variable {fuel : Nat} {rest cs : List Char}

theorem readsDouble_nil : ReadsDouble (fuel + 1) rest [] := by
  intro c _ hcolumn hc
  refine ⟨c.skip 1, ?_, by simp [hc], rfl⟩
  rw [readDoubleQuoted, if_neg (by omega), hc]
  rfl

/-- An escape in front of a text that is read back. -/
theorem ReadsDouble.escape (h : ReadsDouble fuel rest cs) {d : Char}
    (hescape : doubleQuotedChar d = escape d) : ReadsDouble (fuel + 1) rest (d :: cs) := by
  intro c hfuel hcolumn hc
  obtain ⟨letter, more, heq, hbreak, hread⟩ := exists_escape d
  rw [List.flatMap_cons, List.append_assoc, hescape, heq] at hc
  -- The letter of an escape is no break, so the escape stands for a character.
  have hnone : (c.skip 1).takeBreak? = none := by
    refine Cursor.takeBreak?_eq_none ?_
    rw [Cursor.rest_skip, hc]
    simpa using hbreak
  have hrest : (c.skip (more.length + 1 + 1)).rest =
      cs.flatMap doubleQuotedChar ++ '"' :: rest := by
    rw [Cursor.rest_skip, hc]
    simp
  have hne : c.rest ≠ [] := by simp [hc]
  have hless : (c.skip (more.length + 1 + 1)).rest.length < c.rest.length :=
    Cursor.length_rest_skip_lt hne (by omega)
  obtain ⟨c', hgo, hend, hline⟩ := h _ (by omega) (by simp only [Cursor.column_skip]; omega) hrest
  refine ⟨c', ?_, hend, hline⟩
  rw [readDoubleQuoted, if_neg (by omega), hc]
  simp only [List.cons_append, hnone, hread, hgo]
  rfl

/-- A run of blanks in front of a text that is read back. -/
theorem ReadsDouble.spaces (h : ReadsDouble fuel rest cs) {sp : List Char} (hne : sp ≠ [])
    (hsp : ∀ c ∈ sp, isSpace c = true) (hcs : cs.head?.any isSpace = false) :
    ReadsDouble (fuel + 1) rest (sp ++ cs) := by
  intro c hfuel hcolumn hc
  have hgap := startsGap_flatMap hcs rest
  have hblanks : ∀ e ∈ sp, isBlank e = true := fun e he => isBlank_of_isSpace (hsp e he)
  rw [List.flatMap_append, flatMap_spaces hsp, List.append_assoc] at hc
  have hstep := readDoubleQuoted_gap fuel (by omega) hne (fun e he => .inl (hblanks e he)) hc
    (readGap_blanks 0 hblanks hgap hc)
  have hless : (cs.flatMap doubleQuotedChar ++ '"' :: rest).length < fuel := by
    have hpos := List.length_pos_iff.mpr hne
    rw [hc, List.length_append] at hfuel
    omega
  obtain ⟨c', hgo, hend, hline⟩ := h ⟨cs.flatMap doubleQuotedChar ++ '"' :: rest,
    c.index + sp.length, c.line, c.column + sp.length⟩ hless (by simp only; omega) rfl
  refine ⟨c', ?_, hend, hline⟩
  rw [hstep, hgo]
  simp [Gap.folded]

/-- A character that stands for itself in front of a text that is read back. -/
theorem ReadsDouble.char (h : ReadsDouble fuel rest cs) {d : Char}
    (hchar : doubleQuotedChar d = [d]) (hblank : isBlank d = false) (hbreak : isBreak d = false)
    (hquote : d ≠ '"') (hslash : d ≠ '\\') : ReadsDouble (fuel + 1) rest (d :: cs) := by
  intro c hfuel hcolumn hc
  rw [List.flatMap_cons, List.append_assoc, hchar] at hc
  have hne : c.rest ≠ [] := by simp [hc]
  have hless := Cursor.length_rest_skip_lt hne Nat.one_pos
  have hrest : (c.skip 1).rest = cs.flatMap doubleQuotedChar ++ '"' :: rest := by
    simp [hc]
  obtain ⟨c', hgo, hend, hline⟩ := h _ (by omega) (by simp only [Cursor.column_skip]; omega) hrest
  refine ⟨c', ?_, hend, hline⟩
  rw [readDoubleQuoted_cons fuel (by omega) hc hquote hslash, hblank, hbreak, hgo]
  rfl

end

/-- Every text in double quotes is read back. -/
theorem readsDouble (fuel : Nat) (rest cs : List Char) : ReadsDouble fuel rest cs := by
  -- The induction is on the fuel, since a run of blanks is read at once.
  induction fuel generalizing cs with
  | zero =>
    intro c hfuel
    omega
  | succ fuel ih =>
    cases cs with
    | nil => exact readsDouble_nil
    | cons d cs =>
      rcases doubleQuotedChar_cases d with hescape | ⟨hchar, hprint, hbreak, hquote, hslash⟩
      · exact (ih cs).escape hescape
      · by_cases hspace : isSpace d = true
        · obtain ⟨sp, cs', heq, hsp, hcs'⟩ := exists_run isSpace (d :: cs)
          have hne := ne_nil_of_run hspace heq hcs'
          rw [heq]
          exact (ih cs').spaces hne hsp hcs'
        · have hblank : isBlank d = false := by
            rw [isBlank_eq_isSpace hprint]
            simpa using hspace
          exact (ih cs).char hchar hblank hbreak hquote hslash

/-! ### Single quotes -/

/-- Behind the last character that satisfies `p` there is none that satisfies `q`. -/
theorem hasNeighbours_append {p q : Char → Bool} {u v : List Char} (hne : u ≠ [])
    (hu : ∀ c ∈ u, p c = true) (h : hasNeighbours p q (u ++ v) = false) :
    v.head?.any q = false ∧ hasNeighbours p q v = false := by
  induction u with
  | nil => exact absurd rfl hne
  | cons a u ih =>
    have ha := hu a List.mem_cons_self
    cases u with
    | nil =>
      cases v with
      | nil => exact ⟨rfl, rfl⟩
      | cons b v =>
        simp only [List.singleton_append, hasNeighbours, ha, Bool.true_and,
          Bool.or_eq_false_iff] at h
        exact ⟨by simpa using h.1, h.2⟩
    | cons b u =>
      simp only [List.cons_append, hasNeighbours, Bool.or_eq_false_iff] at h
      exact ih (by simp) (fun c hc => hu c (List.mem_cons_of_mem _ hc)) h.2

theorem hasNeighbours_cons {p q : Char → Bool} {a : Char} {cs : List Char}
    (h : hasNeighbours p q (a :: cs) = false) : hasNeighbours p q cs = false := by
  cases cs with
  | nil => rfl
  | cons b cs =>
    simp only [hasNeighbours, Bool.or_eq_false_iff] at h
    exact h.2

/-- A text on one line, but for separators with no blanks beside them. -/
structure SingleQuotable (cs : List Char) : Prop where
  printable : ∀ c ∈ cs, isPrintable c = true
  newline : '\n' ∉ cs
  behind : hasNeighbours isBreak isSpace cs = false
  front : hasNeighbours isSpace isBreak cs = false

theorem SingleQuotable.suffix {u v : List Char} (h : SingleQuotable (u ++ v)) :
    SingleQuotable v := by
  induction u with
  | nil => exact h
  | cons c u ih =>
    refine ih ⟨?_, ?_, hasNeighbours_cons h.behind, hasNeighbours_cons h.front⟩
    · intro d hd
      exact h.printable d (List.mem_cons_of_mem _ hd)
    · intro hmem
      exact h.newline (List.mem_cons_of_mem _ hmem)

/-- A line behind a break starts behind its indentation. -/
theorem singleQuotedChars_behindBreak (n : Nat) {cs : List Char}
    (hcs : cs.head?.any isBreak = false) :
    singleQuotedChars n true cs = blanks n ++ singleQuotedChars n false cs := by
  cases cs with
  | nil => simp [singleQuotedChars]
  | cons c cs =>
    have hc : isBreak c = false := by simpa using hcs
    simp [singleQuotedChars, hc]

theorem singleQuotedChars_breaks (n : Nat) (behindBreak : Bool) {bs cs : List Char} (hne : bs ≠ [])
    (hbs : ∀ b ∈ bs, isBreak b = true) (hcs : cs.head?.any isBreak = false) :
    singleQuotedChars n behindBreak (bs ++ cs) =
      bs ++ (blanks n ++ singleQuotedChars n false cs) := by
  induction bs generalizing behindBreak with
  | nil => exact absurd rfl hne
  | cons b bs ih =>
    have hb := hbs b List.mem_cons_self
    rw [List.cons_append, singleQuotedChars, if_pos hb]
    cases bs with
    | nil => rw [List.nil_append, singleQuotedChars_behindBreak n hcs, List.singleton_append]
    | cons b' bs =>
      rw [ih true (by simp) fun c hc => hbs c (List.mem_cons_of_mem _ hc)]
      rfl

theorem singleQuotedChars_spaces (n : Nat) {sp : List Char} (hsp : ∀ c ∈ sp, isSpace c = true)
    (cs : List Char) :
    singleQuotedChars n false (sp ++ cs) = sp ++ singleQuotedChars n false cs := by
  induction sp with
  | nil => rfl
  | cons c sp ih =>
    obtain rfl : c = ' ' := by simpa [isSpace] using hsp c List.mem_cons_self
    have hrest := ih fun d hd => hsp d (List.mem_cons_of_mem _ hd)
    simp [singleQuotedChars, isBreak, isSeparator, hrest]

/-- Only what starts a gap is written so that a gap starts with it. -/
theorem startsGap_singleQuotedChars (n : Nat) {cs : List Char} (rest : List Char)
    (hprint : ∀ c ∈ cs, isPrintable c = true) (hspace : cs.head?.any isSpace = false)
    (hbreak : cs.head?.any isBreak = false) :
    startsGap (singleQuotedChars n false cs ++ '\'' :: rest) = false := by
  cases cs with
  | nil => simp [singleQuotedChars, startsGap, isBlank, isBreak, isSeparator]
  | cons c cs =>
    have hbreak : isBreak c = false := by simpa using hbreak
    have hblank : isBlank c = false := by
      rw [isBlank_eq_isSpace (hprint c List.mem_cons_self)]
      simpa using hspace
    rw [singleQuotedChars, if_neg (by simp [hbreak])]
    by_cases hquote : c = '\''
    · simp [hquote, startsGap, isBlank, isBreak, isSeparator]
    · simp [hquote, startsGap, hblank, hbreak]

/-- A character that is not the quote is read as it is, or starts a gap. -/
theorem readSingleQuoted_cons (fuel : Nat) {c : Cursor}
    (hmarker : ¬ (c.column = 0 ∧ atDocumentMarker c.rest = true)) {d : Char} {rest : List Char}
    (hc : c.rest = d :: rest) (hquote : d ≠ '\'') :
    readSingleQuoted (fuel + 1) c =
      if isBlank d || isBreak d then
        match readGap 0 c with
        | none => none
        | some (gap, c) => (readSingleQuoted fuel c).map fun r => (gap.folded ++ r.1, r.2)
      else (readSingleQuoted fuel (c.skip 1)).map fun r => (d :: r.1, r.2) := by
  rw [readSingleQuoted, if_neg hmarker, hc]
  split
  · next heq => cases heq
  · next heq => exact absurd (List.cons.inj heq).1 hquote
  · next heq => exact absurd (List.cons.inj heq).1 hquote
  · next heq =>
    obtain ⟨rfl, -⟩ := List.cons.inj heq
    rfl

/-- A gap is read as what it stands for. -/
theorem readSingleQuoted_gap (fuel : Nat) {c : Cursor}
    (hmarker : ¬ (c.column = 0 ∧ atDocumentMarker c.rest = true)) {w rest : List Char}
    (hne : w ≠ []) (hw : ∀ d ∈ w, isBlank d = true ∨ isBreak d = true) (hc : c.rest = w ++ rest)
    {gap : Gap} {c' : Cursor} (hgap : readGap 0 c = some (gap, c')) :
    readSingleQuoted (fuel + 1) c =
      (readSingleQuoted fuel c').map fun r => (gap.folded ++ r.1, r.2) := by
  obtain ⟨d, w, rfl⟩ := List.exists_cons_of_ne_nil hne
  have hd := hw d List.mem_cons_self
  have hquote : d ≠ '\'' := by
    rintro rfl
    exact absurd hd (by decide)
  rw [readSingleQuoted_cons fuel hmarker hc hquote, if_pos (by simpa using hd), hgap]

/-- A gap whose first break is a separator stands for its breaks. -/
theorem folded_of_ne {bs : List Char} (hne : bs ≠ []) (h : '\n' ∉ bs) :
    Gap.folded ⟨[], bs⟩ = bs := by
  obtain ⟨b, bs, rfl⟩ := List.exists_cons_of_ne_nil hne
  have hb : b ≠ '\n' := by
    rintro rfl
    exact h List.mem_cons_self
  simp only [Gap.folded, if_neg hb]

/-- With the given fuel a text in single quotes is read back. -/
def ReadsSingle (n fuel : Nat) (rest cs : List Char) : Prop :=
  ∀ c : Cursor, c.rest.length < fuel → 0 < c.column →
    c.rest = singleQuotedChars n false cs ++ '\'' :: rest →
    ∃ c', readSingleQuoted fuel c = some (cs, c') ∧ c'.rest = rest ∧ c.line ≤ c'.line

section

variable {n fuel : Nat} {rest cs : List Char}

theorem readsSingle_nil (hrest : rest.head? ≠ some '\'') : ReadsSingle n (fuel + 1) rest [] := by
  intro c _ hcolumn hc
  refine ⟨c.skip 1, ?_, by simp [hc, singleQuotedChars], Nat.le_refl _⟩
  rw [readSingleQuoted, if_neg (by omega), hc]
  split
  · next heq => cases heq
  · next heq =>
    refine absurd ?_ hrest
    rw [(List.cons.inj heq).2]
    rfl
  · rfl
  · next heq => exact absurd (List.cons.inj heq).1.symm (by assumption)

/-- A run of breaks in front of a text that is read back, with the indentation between them. -/
theorem ReadsSingle.breaks (h : ReadsSingle n fuel rest cs) (hn : 0 < n) {bs : List Char}
    (hquotable : SingleQuotable (bs ++ cs)) (hne : bs ≠ []) (hbs : ∀ b ∈ bs, isBreak b = true)
    (hcs : cs.head?.any isBreak = false) : ReadsSingle n (fuel + 1) rest (bs ++ cs) := by
  intro c hfuel hcolumn hc
  have hkept : ∀ b ∈ bs, isKeptBreak b = true := by
    intro b hb
    exact isKeptBreak_of_isPrintable (hquotable.printable b (List.mem_append_left _ hb)) (hbs b hb)
  have hspace := (hasNeighbours_append hne hbs hquotable.behind).1
  have hgap := startsGap_singleQuotedChars n rest hquotable.suffix.printable hspace hcs
  have hfolded : Gap.folded ⟨[], bs⟩ = bs := by
    refine folded_of_ne hne ?_
    intro hmem
    exact hquotable.newline (List.mem_append_left _ hmem)
  rw [singleQuotedChars_breaks n false hne hbs hcs, List.append_assoc, List.append_assoc] at hc
  have hstep := readSingleQuoted_gap fuel (by omega) hne (fun b hb => .inr (hbs b hb)) hc
    (readGap_breaks 0 hkept hne hgap hc)
  have hless : (singleQuotedChars n false cs ++ '\'' :: rest).length < fuel := by
    have hpos := List.length_pos_iff.mpr hne
    rw [hc, List.length_append, List.length_append] at hfuel
    omega
  obtain ⟨c', hgo, hend, hline⟩ := h ⟨singleQuotedChars n false cs ++ '\'' :: rest,
    c.index + bs.length + n, c.line + bs.length, n⟩ hless hn rfl
  refine ⟨c', ?_, hend, Nat.le_trans (Nat.le_add_right _ _) hline⟩
  rw [hstep, hgo, hfolded]
  rfl

/-- A run of blanks in front of a text that is read back. -/
theorem ReadsSingle.spaces (h : ReadsSingle n fuel rest cs) {sp : List Char}
    (hquotable : SingleQuotable (sp ++ cs)) (hne : sp ≠ []) (hsp : ∀ c ∈ sp, isSpace c = true)
    (hcs : cs.head?.any isSpace = false) : ReadsSingle n (fuel + 1) rest (sp ++ cs) := by
  intro c hfuel hcolumn hc
  have hbreak := (hasNeighbours_append hne hsp hquotable.front).1
  have hgap := startsGap_singleQuotedChars n rest hquotable.suffix.printable hcs hbreak
  have hblanks : ∀ e ∈ sp, isBlank e = true := fun e he => isBlank_of_isSpace (hsp e he)
  rw [singleQuotedChars_spaces n hsp, List.append_assoc] at hc
  have hstep := readSingleQuoted_gap fuel (by omega) hne (fun e he => .inl (hblanks e he)) hc
    (readGap_blanks 0 hblanks hgap hc)
  have hless : (singleQuotedChars n false cs ++ '\'' :: rest).length < fuel := by
    have hpos := List.length_pos_iff.mpr hne
    rw [hc, List.length_append] at hfuel
    omega
  obtain ⟨c', hgo, hend, hline⟩ := h ⟨singleQuotedChars n false cs ++ '\'' :: rest,
    c.index + sp.length, c.line, c.column + sp.length⟩ hless (by simp only; omega) rfl
  refine ⟨c', ?_, hend, hline⟩
  rw [hstep, hgo]
  simp [Gap.folded]

/-- A doubled quote in front of a text that is read back. -/
theorem ReadsSingle.quote (h : ReadsSingle n fuel rest cs) :
    ReadsSingle n (fuel + 1) rest ('\'' :: cs) := by
  intro c hfuel hcolumn hc
  rw [singleQuotedChars, if_neg (by decide)] at hc
  have hne : c.rest ≠ [] := by simp [hc]
  have hless := Cursor.length_rest_skip_lt hne (by decide : 0 < 2)
  obtain ⟨c', hgo, hend, hline⟩ := h (c.skip 2) (by omega)
    (by simp only [Cursor.column_skip]; omega) (by simp [hc])
  refine ⟨c', ?_, hend, hline⟩
  rw [readSingleQuoted, if_neg (by omega), hc]
  simp [hgo]

/-- A character that stands for itself in front of a text that is read back. -/
theorem ReadsSingle.char (h : ReadsSingle n fuel rest cs) {d : Char} (hblank : isBlank d = false)
    (hbreak : isBreak d = false) (hquote : d ≠ '\'') : ReadsSingle n (fuel + 1) rest (d :: cs) := by
  intro c hfuel hcolumn hc
  have hd : c.rest = d :: (singleQuotedChars n false cs ++ '\'' :: rest) := by
    simpa [singleQuotedChars, hbreak, hquote] using hc
  have hne : c.rest ≠ [] := by simp [hd]
  have hless := Cursor.length_rest_skip_lt hne Nat.one_pos
  obtain ⟨c', hgo, hend, hline⟩ := h (c.skip 1) (by omega)
    (by simp only [Cursor.column_skip]; omega) (by simp [hd])
  refine ⟨c', ?_, hend, hline⟩
  rw [readSingleQuoted_cons fuel (by omega) hd hquote, hblank, hbreak, hgo]
  rfl

end

/-- A text in single quotes is read back, if no quote follows. -/
theorem readsSingle {n : Nat} (hn : 0 < n) {rest : List Char} (hrest : rest.head? ≠ some '\'')
    (fuel : Nat) {cs : List Char} (h : SingleQuotable cs) : ReadsSingle n fuel rest cs := by
  -- The induction is on the fuel, since runs of breaks and of blanks are read at once.
  induction fuel generalizing cs with
  | zero =>
    intro c hfuel
    omega
  | succ fuel ih =>
    cases cs with
    | nil => exact readsSingle_nil hrest
    | cons d cs =>
      by_cases hbreak : isBreak d = true
      · obtain ⟨bs, cs', heq, hbs, hcs'⟩ := exists_run isBreak (d :: cs)
        have hne := ne_nil_of_run hbreak heq hcs'
        rw [heq] at h ⊢
        exact (ih h.suffix).breaks hn h hne hbs hcs'
      · by_cases hspace : isSpace d = true
        · obtain ⟨sp, cs', heq, hsp, hcs'⟩ := exists_run isSpace (d :: cs)
          have hne := ne_nil_of_run hspace heq hcs'
          rw [heq] at h ⊢
          exact (ih h.suffix).spaces h hne hsp hcs'
        · have hread := ih (h.suffix (u := [d]))
          by_cases hquote : d = '\''
          · rw [hquote]
            exact hread.quote
          · refine hread.char ?_ (by simpa using hbreak) hquote
            rw [isBlank_eq_isSpace (h.printable d List.mem_cons_self)]
            simpa using hspace

end Provisioning.Yaml
