import Provisioning.Proofs.Datum
import Provisioning.Proofs.Numeral
import Provisioning.Proofs.Yaml.Cursor

/-! # Plain scalars

    A plain scalar is read word by word. The words of a text that may be written without quotes
    hold no colon in front of a gap, and none of them starts with a number sign; so the scalar
    ends where the line does, if the next line is not indented as deeply as the scalar has to be.
-/

namespace Provisioning.Yaml

/-! ### Gaps around text -/

/-- What follows a text that does not end with it decides whether a gap follows its end only. -/
theorem atGap_append {cs tail : List Char} (htail : atGap tail = true) :
    atGap (cs ++ tail) = atGap cs := by
  cases cs with
  | nil => simpa [atGap] using htail
  | cons c cs => rfl

theorem atGap_newline (cs : List Char) : atGap ('\n' :: cs) = true := rfl

/-! ### Texts without indicators -/

/-- A text may be written plain if its characters stand on one line, nothing in it is taken for an
indicator, and it starts and ends with something to see. -/
theorem allowsPlain_iff {cs : List Char} :
    allowsPlain cs = true ↔
      (∀ c ∈ cs, isPrintable c = true ∧ isBreak c = false) ∧ hasIndicator cs = false ∧
        cs.head?.any isSpace = false ∧ cs.getLast?.any isSpace = false := by
  unfold allowsPlain
  simp only [Bool.and_eq_true, Bool.not_eq_true', List.all_eq_true, and_assoc]

/-- Behind a character of a text there is no indicator if there is none in the text. -/
theorem hasLaterIndicator_append {previous d : Char} {u v : List Char}
    (h : hasLaterIndicator previous (u ++ d :: v) = false) : hasLaterIndicator d v = false := by
  induction u generalizing previous with
  | nil =>
    simp only [List.nil_append, hasLaterIndicator, Bool.or_eq_false_iff] at h
    exact h.2
  | cons c u ih =>
    simp only [List.cons_append, hasLaterIndicator, Bool.or_eq_false_iff] at h
    exact ih h.2

/-- All blanks in front of a text are alike. -/
theorem hasLaterIndicator_of_isBlank {d : Char} (hd : isBlank d = true) (cs : List Char) :
    hasLaterIndicator d cs = hasLaterIndicator ' ' cs := by
  cases cs with
  | nil => rfl
  | cons c cs => simp [hasLaterIndicator, hd, show isBlank ' ' = true from rfl]

/-- A text that may be written plain has no indicator, read as if behind a blank. -/
theorem hasLaterIndicator_of_allowsPlain {cs : List Char} (h : allowsPlain cs = true) :
    hasLaterIndicator ' ' cs = false := by
  have hindicator := (allowsPlain_iff.mp h).2.1
  cases cs with
  | nil => rfl
  | cons c rest =>
    simp only [hasIndicator, Bool.or_eq_false_iff] at hindicator
    obtain ⟨⟨-, hfirst⟩, hlater⟩ := hindicator
    simp only [isFirstIndicator, Bool.or_eq_false_iff] at hfirst
    simp only [hasLaterIndicator, hlater, Bool.or_false, Bool.or_eq_false_iff]
    refine ⟨?_, ?_⟩
    · by_cases hcolon : c = ':'
      · subst hcolon
        simpa using hfirst.2
      · simp [hcolon]
    · by_cases hnumber : c = '#'
      · subst hnumber
        exact absurd hfirst.1 (by decide)
      · simp [hnumber]

theorem isFirstIndicator_of_allowsPlain {c : Char} {cs : List Char}
    (h : allowsPlain (c :: cs) = true) : isFirstIndicator c cs = false := by
  have hindicator := (allowsPlain_iff.mp h).2.1
  simp only [hasIndicator, Bool.or_eq_false_iff] at hindicator
  exact hindicator.1.2

/-- What follows a text that does not end with its first character decides nothing about it. -/
theorem isFirstIndicator_append (c : Char) (cs : List Char) {tail : List Char}
    (htail : atGap tail = true) : isFirstIndicator c (cs ++ tail) = isFirstIndicator c cs := by
  unfold isFirstIndicator
  rw [atGap_append htail]

/-! ### Words -/

/-- Outside of flow collections a word ends at a gap and at a colon in front of one. -/
theorem plainWord_cons (c : Char) (rest : List Char) :
    plainWord false (c :: rest) =
      if isBlank c || isBreak c then some []
      else if c == ':' && atGap rest then some []
      else (plainWord false rest).map (c :: ·) := by
  rw [plainWord.eq_def]
  simp

/-- A word ends at the gap behind it. -/
theorem plainWord_word {previous : Char} {w rest tail : List Char}
    (hw : ∀ c ∈ w, isBlank c = false ∧ isBreak c = false)
    (hlater : hasLaterIndicator previous (w ++ rest) = false) (hrest : atGap rest = true)
    (htail : atGap tail = true) : plainWord false (w ++ (rest ++ tail)) = some w := by
  induction w generalizing previous with
  | nil =>
    have hgap : atGap (rest ++ tail) = true := by rw [atGap_append htail, hrest]
    rw [List.nil_append]
    cases hcs : rest ++ tail with
    | nil => rfl
    | cons c cs =>
      rw [hcs] at hgap
      have hstop : (isBlank c || isBreak c) = true := hgap
      rw [plainWord_cons, if_pos hstop]
  | cons c w ih =>
    simp only [List.cons_append, hasLaterIndicator, Bool.or_eq_false_iff] at hlater
    obtain ⟨hblank, hbreak⟩ := hw c List.mem_cons_self
    have hcolon : (c == ':' && atGap (w ++ (rest ++ tail))) = false := by
      rw [← List.append_assoc, atGap_append htail]
      exact hlater.1.1
    have hword := ih (fun d hd => hw d (List.mem_cons_of_mem _ hd)) hlater.2
    rw [List.cons_append, plainWord_cons]
    simp [hblank, hbreak, hcolon, hword]

/-- A word without colons ends at the colon in front of a gap. -/
theorem plainWord_name {w rest : List Char}
    (hw : ∀ c ∈ w, isBlank c = false ∧ isBreak c = false ∧ c ≠ ':') (hrest : atGap rest = true) :
    plainWord false (w ++ ':' :: rest) = some w := by
  induction w with
  | nil => simp [plainWord_cons, isBlank, isBreak, isSeparator, hrest]
  | cons c w ih =>
    obtain ⟨hblank, hbreak, hcolon⟩ := hw c List.mem_cons_self
    have hword := ih fun d hd => hw d (List.mem_cons_of_mem _ hd)
    rw [List.cons_append, plainWord_cons]
    simp [hblank, hbreak, hcolon, hword]

/-! ### Texts -/

/-- What is left of a plain text at the start of a word. -/
structure PlainRest (cs : List Char) : Prop where
  ne_nil : cs ≠ []
  head : cs.head?.any isBlank = false
  last : cs.getLast?.any isBlank = false
  unbroken : ∀ c ∈ cs, isBreak c = false
  later : hasLaterIndicator ' ' cs = false

theorem any_isBlank_of_any_isSpace {c? : Option Char} (hprint : ∀ c ∈ c?, isPrintable c = true)
    (h : c?.any isSpace = false) : c?.any isBlank = false := by
  cases c? with
  | none => rfl
  | some c =>
    rw [Option.any_some, isBlank_eq_isSpace (hprint c rfl)]
    exact h

/-- A text that may be written plain is read from the start of its first word. -/
theorem plainRest_of_allowsPlain {cs : List Char} (h : allowsPlain cs = true) (hne : cs ≠ []) :
    PlainRest cs := by
  have hlater := hasLaterIndicator_of_allowsPlain h
  obtain ⟨hchars, -, hhead, hlast⟩ := allowsPlain_iff.mp h
  refine ⟨hne, ?_, ?_, fun c hc => (hchars c hc).2, hlater⟩
  · exact any_isBlank_of_any_isSpace
      (fun c hc => (hchars c (List.mem_of_mem_head? hc)).1) hhead
  · exact any_isBlank_of_any_isSpace
      (fun c hc => (hchars c (List.mem_of_mem_getLast? hc)).1) hlast

/-- Behind blanks a plain text goes on with another word. -/
theorem PlainRest.behind {u sp cs : List Char} (h : PlainRest (u ++ sp ++ cs)) (hne : sp ≠ [])
    (hsp : ∀ c ∈ sp, isBlank c = true) (hcs : cs.head?.any isBlank = false) : PlainRest cs := by
  have hlast := h.last
  -- The text does not end with a blank, so something follows the blanks.
  have hcsne : cs ≠ [] := by
    rintro rfl
    have hmem := hsp _ (List.getLast_mem hne)
    simp [List.getLast?_append, List.getLast?_eq_some_getLast hne, hmem] at hlast
  refine ⟨hcsne, hcs, ?_, ?_, ?_⟩
  · simpa [List.getLast?_append, List.getLast?_eq_some_getLast hcsne] using hlast
  · intro d hd
    exact h.unbroken d (List.mem_append_right _ hd)
  · have hlater := h.later
    have hsplit : u ++ sp ++ cs = (u ++ sp.dropLast) ++ sp.getLast hne :: cs := by
      rw [← List.singleton_append, List.append_assoc u, List.append_assoc u,
        ← List.append_assoc sp.dropLast, List.dropLast_concat_getLast hne]
    rw [hsplit] at hlater
    rw [← hasLaterIndicator_of_isBlank (hsp _ (List.getLast_mem hne))]
    exact hasLaterIndicator_append hlater

/-- What is left of a plain text is a word, or a word, blanks and what is left behind them. -/
theorem PlainRest.split {cs : List Char} (h : PlainRest cs) :
    ∃ w rest, cs = w ++ rest ∧ w ≠ [] ∧ (∀ c ∈ w, isBlank c = false ∧ isBreak c = false) ∧
      (rest = [] ∨ ∃ sp cs', rest = sp ++ cs' ∧ sp ≠ [] ∧ (∀ c ∈ sp, isBlank c = true) ∧
        PlainRest cs') := by
  obtain ⟨c, cs, rfl⟩ := List.exists_cons_of_ne_nil h.ne_nil
  have hc : isBlank c = false := by simpa using h.head
  obtain ⟨w, rest, heq, hw, hrest⟩ := exists_run (fun c => !isBlank c) (c :: cs)
  have hwne : w ≠ [] := ne_nil_of_run (by simp [hc]) heq hrest
  refine ⟨w, rest, heq, hwne, ?_, ?_⟩
  · intro d hd
    refine ⟨by simpa using hw d hd, h.unbroken d ?_⟩
    rw [heq]
    exact List.mem_append_left _ hd
  · cases rest with
    | nil => exact .inl rfl
    | cons b rest =>
      right
      have hb : isBlank b = true := by simpa using hrest
      obtain ⟨sp, cs', hsp, hblanks, hcs'⟩ := exists_run isBlank (b :: rest)
      have hspne : sp ≠ [] := ne_nil_of_run hb hsp hcs'
      rw [heq, hsp, ← List.append_assoc] at h
      exact ⟨sp, cs', hsp, hspne, hblanks, h.behind hspne hblanks hcs'⟩

/-! ### Reading -/

theorem PlainRest.head?_ne {cs : List Char} (h : PlainRest cs) (tail : List Char) :
    (cs ++ tail).head? ≠ some '#' := by
  obtain ⟨c, cs, rfl⟩ := List.exists_cons_of_ne_nil h.ne_nil
  have hlater := h.later
  simp only [hasLaterIndicator, Bool.or_eq_false_iff] at hlater
  rintro heq
  obtain rfl := Option.some.inj heq
  exact absurd hlater.1.2 (by decide)

/-- A word is read with the gap behind it, and the scalar ends if what follows does not reach the
column `least`. -/
theorem readPlain_word {least : Int} (fuel : Nat) (gap : Gap) {c : Cursor} (hcolumn : 0 < c.column)
    (hhash : c.rest.head? ≠ some '#') {w rest : List Char} (hc : c.rest = w ++ rest)
    (hword : plainWord false c.rest = some w) (hne : w ≠ []) (hrest : rest ≠ [])
    (hgap : atGap rest = true) {gap' : Gap} {c' : Cursor}
    (hread : readGap least ⟨rest, c.index + w.length, c.line, c.column + w.length⟩ =
      some (gap', c')) :
    readPlain false least (fuel + 1) gap c =
      if (c'.column : Int) < least then some ⟨gap.folded ++ w, gap'.spansLines, c'⟩
      else (readPlain false least fuel gap' c').map fun run =>
        { run with text := gap.folded ++ w ++ run.text } := by
  have hskip := Cursor.skip_length hc
  have hempty : w.isEmpty = false := by simpa using hne
  have hstops : (rest.isEmpty || !atGap rest) = false := by simp [hrest, hgap]
  rw [readPlain, if_neg (by omega), if_neg hhash, hword]
  simp only [hskip, hempty, hstops, hread, Bool.false_eq_true, if_false, Bool.not_false,
    Bool.true_and, decide_eq_true_eq]

/-- The words of a plain text are read to the end of its line, and the scalar ends if the next
line does not reach the column `least`. -/
theorem readPlain_text {least : Int} {m : Nat} (hm : (m : Int) < least) {body : List Char}
    (hbody : startsGap body = false) {fuel : Nat} {gap : Gap} {cs : List Char}
    (h : PlainRest cs) (hfuel : cs.length < fuel) {c : Cursor} (hcolumn : least ≤ c.column)
    (hc : c.rest = cs ++ '\n' :: (blanks m ++ body)) :
    readPlain false least fuel gap c =
      some ⟨gap.folded ++ cs, true, ⟨body, c.index + cs.length + 1 + m, c.line + 1, m⟩⟩ := by
  -- The induction is on the fuel, since a word and the blanks behind it are read at once.
  induction fuel generalizing gap cs c with
  | zero => omega
  | succ fuel ih =>
    obtain ⟨w, rest, heq, hwne, hw, hrest⟩ := h.split
    have htail := atGap_newline (blanks m ++ body)
    have hgap : atGap rest = true := by
      rcases hrest with rfl | ⟨sp, cs', rfl, hspne, hsp, -⟩
      · rfl
      · obtain ⟨b, sp, rfl⟩ := List.exists_cons_of_ne_nil hspne
        simp [atGap, hsp b List.mem_cons_self]
    have hgap' : atGap (rest ++ '\n' :: (blanks m ++ body)) = true := by
      rw [atGap_append htail, hgap]
    have hsplit : c.rest = w ++ (rest ++ '\n' :: (blanks m ++ body)) := by
      rw [hc, heq, List.append_assoc]
    have hword : plainWord false c.rest = some w := by
      have hlater := h.later
      rw [heq] at hlater
      rw [hsplit]
      exact plainWord_word hw hlater hgap htail
    have hhash : c.rest.head? ≠ some '#' := by
      rw [hc]
      exact h.head?_ne _
    have hstep := @readPlain_word least fuel gap c (by omega) hhash w
      (rest ++ '\n' :: (blanks m ++ body)) hsplit hword hwne (by simp) hgap'
    rcases hrest with rfl | ⟨sp, cs', rfl, hspne, hsp, hcs'⟩
    · -- The last word: the gap behind it spans lines and ends too far to the left.
      have hkept : ∀ b ∈ ['\n'], isKeptBreak b = true := by
        intro b hb
        rw [List.mem_singleton.mp hb]
        rfl
      have hread := readGap_breaks least hkept (by simp) hbody
        (c := ⟨[] ++ '\n' :: (blanks m ++ body), c.index + w.length, c.line,
          c.column + w.length⟩) rfl
      rw [hstep hread, if_pos hm, heq, List.append_nil]
      rfl
    · -- Blanks and another word.
      have hnext : startsGap (cs' ++ '\n' :: (blanks m ++ body)) = false := by
        obtain ⟨d, cs'', rfl⟩ := List.exists_cons_of_ne_nil hcs'.ne_nil
        have hblank : isBlank d = false := by simpa using hcs'.head
        simp [startsGap, hblank, hcs'.unbroken d List.mem_cons_self]
      have hread := readGap_blanks least hsp hnext
        (c := ⟨sp ++ cs' ++ '\n' :: (blanks m ++ body), c.index + w.length, c.line,
          c.column + w.length⟩) (List.append_assoc _ _ _)
      have hlength : cs'.length < fuel := by
        have hw := List.length_pos_iff.mpr hwne
        rw [heq] at hfuel
        simp only [List.length_append] at hfuel
        omega
      have hrec := @ih ⟨sp, []⟩ cs' hcs' hlength ⟨cs' ++ '\n' :: (blanks m ++ body),
        c.index + w.length + sp.length, c.line, c.column + w.length + sp.length⟩
        (by simp only; omega) rfl
      rw [hstep hread, if_neg (by simp only; omega), hrec, heq]
      simp [Gap.folded, Nat.add_assoc]

/-! ### Words of visible characters -/

theorem visible_of_isNamePart {c : Char} (h : isNamePart c = true) : Visible c := by
  have hrange : ('a'.toNat ≤ c.toNat ∧ c.toNat ≤ 'z'.toNat) ∨
      ('A'.toNat ≤ c.toNat ∧ c.toNat ≤ 'Z'.toNat) ∨
      ('0'.toNat ≤ c.toNat ∧ c.toNat ≤ '9'.toNat) ∨ c.toNat = '-'.toNat := by
    simp only [isNamePart, isLetter, Bool.or_eq_true, Bool.and_eq_true, decide_eq_true_eq,
      beq_iff_eq] at h
    rcases h with ((⟨hlo, hhi⟩ | ⟨hlo, hhi⟩) | ⟨hlo, hhi⟩) | rfl
    · exact .inl ⟨hlo, hhi⟩
    · exact .inr (.inl ⟨hlo, hhi⟩)
    · exact .inr (.inr (.inl ⟨hlo, hhi⟩))
    · exact .inr (.inr (.inr rfl))
  simp only [Char.reduceToNat] at hrange
  constructor <;> omega

/-- A word of visible characters without colons holds no indicator behind its first character. -/
theorem hasLaterIndicator_of_visible {previous : Char} {cs : List Char}
    (hprevious : Visible previous) (hcs : ∀ c ∈ cs, Visible c ∧ c ≠ ':') :
    hasLaterIndicator previous cs = false := by
  induction cs generalizing previous with
  | nil => rfl
  | cons c cs ih =>
    obtain ⟨hvisible, hcolon⟩ := hcs c List.mem_cons_self
    have hrest := ih hvisible fun d hd => hcs d (List.mem_cons_of_mem _ hd)
    simp [hasLaterIndicator, hcolon, hprevious.isBlank, hprevious.isBreak, hrest]

/-- A word of visible characters without colons may be written plain if its start allows it. -/
theorem allowsPlain_of_visible {c : Char} {cs : List Char}
    (hcs : ∀ d ∈ c :: cs, Visible d ∧ d ≠ ':') (hmarker : startsLikeMarker (c :: cs) = false)
    (hfirst : isFirstIndicator c cs = false) :
    allowsPlain (c :: cs) = true := by
  have hlater := hasLaterIndicator_of_visible (hcs c List.mem_cons_self).1
    fun d hd => hcs d (List.mem_cons_of_mem _ hd)
  have hspace : ∀ d ∈ c :: cs, isSpace d = false := by
    intro d hd
    rw [← isBlank_eq_isSpace (hcs d hd).1.isPrintable]
    exact (hcs d hd).1.isBlank
  refine allowsPlain_iff.mpr ⟨?_, ?_, hspace c List.mem_cons_self, ?_⟩
  · intro d hd
    exact ⟨(hcs d hd).1.isPrintable, (hcs d hd).1.isBreak⟩
  · simp [hasIndicator, hmarker, hfirst, hlater]
  · rw [List.getLast?_eq_some_getLast (by simp), Option.any_some]
    exact hspace _ (List.getLast_mem _)

theorem startsLikeMarker_of_ne {c : Char} {cs : List Char} (hdash : c ≠ '-') (hdot : c ≠ '.') :
    startsLikeMarker (c :: cs) = false := by
  unfold startsLikeMarker
  split
  · next heq => exact absurd (List.cons.inj heq).1 hdash
  · next heq => exact absurd (List.cons.inj heq).1 hdot
  · rfl

/-- The decimal digits of a number are visible, and no indicator is among them. -/
theorem exists_decimal_eq_cons (n : Nat) :
    ∃ c cs, Numeral.decimal n = c :: cs ∧ (∀ d ∈ c :: cs, Visible d ∧ d ≠ ':') ∧ c ≠ '-' ∧
      c ≠ '.' ∧ ∀ rest, isFirstIndicator c rest = false := by
  obtain ⟨d, more, hd, hcons⟩ := Numeral.exists_toDigits_eq_cons (b := 10) (by decide) n
  have hvisible : ∀ c ∈ Numeral.decimal n, Visible c ∧ c ≠ ':' := by
    intro c hc
    have hdigit : c.isDigit = true := Nat.isDigit_of_mem_toDigits (by decide) (by decide) hc
    have hrange : '0' ≤ c ∧ c ≤ '9' := by
      simp only [Char.isDigit, Bool.and_eq_true, decide_eq_true_eq] at hdigit
      exact hdigit
    refine ⟨visible_of_isNamePart (by simp [isNamePart, hrange]), ?_⟩
    rintro rfl
    exact absurd hdigit (by decide)
  have hindicators : ∀ e : Fin 10,
      "#,[]\x7b\x7d&*!|>'\"%@`".toList.contains (Nat.digitChar e) = false ∧
        "?:-".toList.contains (Nat.digitChar e) = false := by decide
  obtain ⟨hany, hgap⟩ := hindicators ⟨d, hd⟩
  refine ⟨Nat.digitChar d, more, hcons, ?_, ?_, ?_, ?_⟩
  · rw [← hcons]
    exact hvisible
  · exact Numeral.digitChar_ne (by decide) hd (by decide)
  · exact Numeral.digitChar_ne (by decide) hd (by decide)
  · intro rest
    unfold isFirstIndicator
    rw [hany, hgap]
    rfl

/-- An integer may be written plain. -/
theorem allowsPlain_signedDecimal (i : Int) : allowsPlain (Numeral.signedDecimal i) = true := by
  cases i with
  | ofNat n =>
    obtain ⟨c, cs, hcons, hvisible, hdash, hdot, hfirst⟩ := exists_decimal_eq_cons n
    show allowsPlain (Numeral.decimal n) = true
    rw [hcons]
    exact allowsPlain_of_visible hvisible (startsLikeMarker_of_ne hdash hdot) (hfirst cs)
  | negSucc n =>
    obtain ⟨c, cs, hcons, hvisible, hdash, hdot, -⟩ := exists_decimal_eq_cons (n + 1)
    show allowsPlain ('-' :: Numeral.decimal (n + 1)) = true
    rw [hcons]
    refine allowsPlain_of_visible ?_ ?_ ?_
    · intro d hd
      rcases List.mem_cons.mp hd with rfl | hd
      · exact ⟨⟨by decide, by decide⟩, by decide⟩
      · exact hvisible d hd
    · unfold startsLikeMarker
      split
      · next heq => exact absurd (List.cons.inj (List.cons.inj heq).2).1 hdash
      · next heq => exact absurd (List.cons.inj heq).1 (by decide)
      · rfl
    · have hc := (hvisible c List.mem_cons_self).1
      simp [isFirstIndicator, atGap, hc.isBlank, hc.isBreak]

/-! ### Names -/

/-- A name is a letter and more parts of names, not too many. -/
theorem exists_of_isMemberName {name : List Char} (h : isMemberName name = true) :
    ∃ c cs, name = c :: cs ∧ isLetter c = true ∧ (∀ d ∈ c :: cs, isNamePart d = true) ∧
      cs.length < nameLimit := by
  cases name with
  | nil => cases h
  | cons c cs =>
    simp only [isMemberName, Bool.and_eq_true, List.all_eq_true, decide_eq_true_eq] at h
    obtain ⟨⟨hletter, hparts⟩, hlength⟩ := h
    refine ⟨c, cs, rfl, hletter, ?_, hlength⟩
    intro d hd
    rcases List.mem_cons.mp hd with rfl | hd
    · simp [isNamePart, hletter]
    · exact hparts d hd

theorem ne_of_isLetter {c d : Char} (hc : isLetter c = true) (hd : isLetter d = false) : c ≠ d := by
  rintro rfl
  rw [hc] at hd
  cases hd

/-- No marker of a document starts with a letter. -/
theorem atDocumentMarker_of_isLetter {c : Char} {cs : List Char} (hc : isLetter c = true) :
    atDocumentMarker (c :: cs) = false := by
  unfold atDocumentMarker
  split
  · next heq =>
    exact absurd (List.cons.inj heq).1 (ne_of_isLetter hc (by decide))
  · next heq =>
    exact absurd (List.cons.inj heq).1 (ne_of_isLetter hc (by decide))
  · rfl

/-- No indicator is a letter. -/
theorem isFirstIndicator_of_isLetter {c : Char} (hc : isLetter c = true) (rest : List Char) :
    isFirstIndicator c rest = false := by
  have hnot : ∀ s : List Char, s.any isLetter = false → s.contains c = false := by
    intro s hs
    by_cases hmem : c ∈ s
    · rw [List.any_eq_false] at hs
      exact absurd hc (hs c hmem)
    · simpa using hmem
  unfold isFirstIndicator
  rw [hnot _ rfl, hnot _ rfl]
  rfl

/-- A name is read up to the colon behind it. -/
theorem readPlain_name (least : Int) (fuel : Nat) {name rest : List Char}
    (hname : isMemberName name = true) (hrest : atGap rest = true) {c : Cursor}
    (hc : c.rest = name ++ ':' :: rest) :
    readPlain false least (fuel + 1) ⟨[], []⟩ c = some ⟨name, false, c.skip name.length⟩ := by
  obtain ⟨d, cs, rfl, hletter, hparts, -⟩ := exists_of_isMemberName hname
  have hword : plainWord false (d :: cs ++ ':' :: rest) = some (d :: cs) := by
    refine plainWord_name ?_ hrest
    intro e he
    have hvisible := visible_of_isNamePart (hparts e he)
    refine ⟨hvisible.isBlank, hvisible.isBreak, ?_⟩
    rintro rfl
    exact absurd (hparts _ he) (by decide)
  have hmarker : ¬ (c.column = 0 ∧ atDocumentMarker c.rest = true) := by
    rw [hc, List.cons_append, atDocumentMarker_of_isLetter hletter]
    simp
  have hhash : c.rest.head? ≠ some '#' := by
    rw [hc]
    simpa using ne_of_isLetter hletter (by decide)
  have hskip := Cursor.skip_length hc
  rw [readPlain, if_neg hmarker, if_neg hhash]
  simp only [hc, hword, hskip]
  simp [atGap, isBlank, isBreak, isSeparator, Gap.folded, Gap.spansLines]

end Provisioning.Yaml
