import Provisioning.Proofs.Yaml.Plain
import Provisioning.Proofs.Yaml.Quoted

/-! # Written text

    What is known of a text for each style that it may be written in, with what the text of a
    datum starts, and which characters it holds: printable ones of ASCII, line feeds, and
    printable ones of the texts of the datum.
-/

namespace Provisioning.Yaml

/-! ### Styles -/

/-- What is known of a text for each style that it may be written in. -/
theorem styleOf_cases (s : String) :
    (styleOf s = .literal ∧ s.toList ≠ [] ∧ ∀ c ∈ s.toList, isPrintable c = true) ∨
      (styleOf s = .plain ∧ isTextWhenPlain s = true ∧ allowsPlain s.toList = true) ∨
      (styleOf s = .singleQuoted ∧ SingleQuotable s.toList) ∨ styleOf s = .doubleQuoted := by
  unfold styleOf
  by_cases hnewline : s.toList.contains '\n' = true
  · simp only [hnewline, if_true]
    by_cases hblock : allowsBlock s.toList = true
    · left
      rw [if_pos hblock]
      refine ⟨rfl, ?_, ?_⟩
      · intro hnil
        rw [hnil] at hnewline
        cases hnewline
      · unfold allowsBlock at hblock
        simp only [Bool.and_eq_true, List.all_eq_true] at hblock
        exact hblock.1.1
    · right; right; right
      rw [if_neg hblock]
  · simp only [hnewline, Bool.false_eq_true, if_false]
    by_cases hplain : (isTextWhenPlain s && allowsPlain s.toList) = true
    · right; left
      rw [if_pos hplain]
      exact ⟨rfl, by simpa using hplain⟩
    · rw [if_neg hplain]
      right; right
      by_cases hquotes : allowsSingleQuotes s.toList = true
      · left
        rw [if_pos hquotes]
        unfold allowsSingleQuotes at hquotes
        simp only [Bool.and_eq_true, Bool.not_eq_true', List.all_eq_true] at hquotes
        exact ⟨rfl, hquotes.1.1, by simpa using hnewline, hquotes.1.2, hquotes.2⟩
      · right
        rw [if_neg hquotes]

/-- A text that is one when it is plain is not empty. -/
theorem ne_nil_of_isTextWhenPlain {s : String} (h : isTextWhenPlain s = true) : s.toList ≠ [] := by
  intro hnil
  unfold isTextWhenPlain plainMeaning at h
  simp [hnil] at h

/-- Nor is it a word for nothing. -/
theorem not_isNull_of_isTextWhenPlain {s : String} (h : isTextWhenPlain s = true) :
    isNull s = false := by
  cases hnull : isNull s with
  | false => rfl
  | true =>
    unfold isTextWhenPlain plainMeaning at h
    simp [hnull] at h

/-! ### Printable text -/

/-- What is printable may stand in a text. -/
theorem isAllowed_of_isPrintable {c : Char} (h : isPrintable c = true) : isAllowed c = true := by
  have hvalid : c.toNat < 0xd800 ∨ 0xdfff < c.toNat ∧ c.toNat < 0x110000 := c.valid
  simp only [isPrintable, isAllowed, Bool.or_eq_true, Bool.and_eq_true, beq_iff_eq, bne_iff_ne,
    decide_eq_true_eq] at h ⊢
  omega

theorem isPrintable_of_allowsPlain {cs : List Char} (h : allowsPlain cs = true) {c : Char}
    (hc : c ∈ cs) : isPrintable c = true :=
  ((allowsPlain_iff.mp h).1 c hc).1

/-! ### How text starts -/

theorem solid_cons {c : Char} (h : isLoose c = false) (cs : List Char) : Solid (c :: cs) := h

theorem solid_of_allowsPlain {cs : List Char} (h : allowsPlain cs = true) (hne : cs ≠ [])
    (tail : List Char) : Solid (cs ++ tail) := by
  have hrest := plainRest_of_allowsPlain h hne
  have hnumber := hrest.head?_ne tail
  obtain ⟨c, cs, rfl⟩ := List.exists_cons_of_ne_nil hne
  have hblank : isBlank c = false := by simpa using hrest.head
  have hprint := isPrintable_of_allowsPlain h List.mem_cons_self
  -- A byte order mark would be skipped as well, but it is not printable.
  have hmark : isByteOrderMark c = false := by
    unfold isByteOrderMark
    unfold isPrintable at hprint
    by_cases hcode : c.toNat = 0xfeff
    · rw [hcode] at hprint
      cases hprint
    · simpa using hcode
  have hcomment : (c == '#') = false := by simpa using hnumber
  show isLoose c = false
  simp [isLoose, hblank, hrest.unbroken c List.mem_cons_self, hmark, hcomment]

theorem solid_of_isMemberName {name : List Char} (h : isMemberName name = true)
    (tail : List Char) : Solid (name ++ tail) := by
  obtain ⟨c, cs, rfl, hletter, hparts, -⟩ := exists_of_isMemberName h
  have hvisible := visible_of_isNamePart (hparts c List.mem_cons_self)
  have hcomment : (c == '#') = false := by
    simpa using ne_of_isLetter hletter (by decide)
  have hmark : isByteOrderMark c = false := by
    have hcode := hvisible.greatest
    simp only [isByteOrderMark, beq_eq_false_iff_ne]
    omega
  show isLoose c = false
  simp [isLoose, hvisible.isBlank, hvisible.isBreak, hcomment, hmark]

theorem solid_textLines (n : Nat) (s : String) (tail : List Char) :
    Solid (textLines n s ++ tail) := by
  unfold textLines
  rcases styleOf_cases s with ⟨hstyle, -⟩ | ⟨hstyle, htext, hplain⟩ | ⟨hstyle, -⟩ | hstyle
  · simp only [hstyle]
    exact solid_cons rfl _
  · simp only [hstyle, List.append_assoc]
    exact solid_of_allowsPlain hplain (ne_nil_of_isTextWhenPlain htext) _
  · simp only [hstyle]
    exact solid_cons rfl _
  · simp only [hstyle]
    exact solid_cons rfl _

theorem signedDecimal_ne_nil (i : Int) : Numeral.signedDecimal i ≠ [] := by
  cases i with
  | ofNat n =>
    obtain ⟨c, cs, hcons, -⟩ := exists_decimal_eq_cons n
    show Numeral.decimal n ≠ []
    rw [hcons]
    nofun
  | negSucc n => nofun

/-- The text of a record starts with the name of its first member. -/
theorem solid_lines_record {name : String} (hname : isMemberName name.toList = true) {d : Datum}
    {ms : List (String × Datum)} (n : Nat) (tail : List Char) :
    Solid (lines n (.record ((name, d) :: ms)) ++ tail) := by
  rw [lines, memberText, List.append_assoc, List.append_assoc]
  exact solid_of_isMemberName hname _

/-- The text of a datum without parts starts with a token. -/
theorem solid_leaf {d : Datum} (hd : d.Leaf) (n : Nat) (tail : List Char) :
    Solid (lines n d ++ tail) := by
  cases hd with
  | null | emptyList | emptyRecord =>
    rw [lines]
    exact solid_cons rfl _
  | boolean b =>
    cases b <;> rw [lines] <;> exact solid_cons rfl _
  | integer =>
    rw [lines, List.append_assoc]
    exact solid_of_allowsPlain (allowsPlain_signedDecimal _) (signedDecimal_ne_nil _) _
  | text s =>
    rw [lines]
    exact solid_textLines n s tail

/-! ### Which characters are written -/

/-- Whether all characters of a text are of a class. -/
def AllOf (q : Char → Prop) (cs : List Char) : Prop :=
  ∀ c ∈ cs, q c

section

variable {q : Char → Prop}

@[simp] theorem allOf_nil : AllOf q [] := nofun

@[simp] theorem allOf_cons {c : Char} {cs : List Char} : AllOf q (c :: cs) ↔ q c ∧ AllOf q cs :=
  List.forall_mem_cons

@[simp] theorem allOf_append {cs ds : List Char} :
    AllOf q (cs ++ ds) ↔ AllOf q cs ∧ AllOf q ds :=
  List.forall_mem_append

/-- A class of the characters in which everything but the texts of a datum is written. -/
def HasAscii (q : Char → Prop) : Prop :=
  ∀ c, isPrintable c = true → c.toNat < 0x80 → q c

variable (hq : HasAscii q)

include hq

theorem allOf_ascii {cs : List Char}
    (h : cs.all (fun c => isPrintable c && decide (c.toNat < 0x80)) = true) : AllOf q cs := by
  intro c hc
  have hboth := List.all_eq_true.mp h c hc
  rw [Bool.and_eq_true, decide_eq_true_eq] at hboth
  exact hq c hboth.1 hboth.2

theorem allOf_blanks (n : Nat) : AllOf q (blanks n) := by
  intro c hc
  rw [eq_of_mem_blanks hc]
  exact hq ' ' rfl (by decide)

theorem allOf_signedDecimal (i : Int) : AllOf q (Numeral.signedDecimal i) := by
  intro c hc
  have hprint := isPrintable_of_allowsPlain (allowsPlain_signedDecimal i) hc
  exact hq c hprint (Numeral.toNat_lt_of_mem_signedDecimal hc)

theorem allOf_memberName {name : List Char} (h : isMemberName name = true) : AllOf q name := by
  obtain ⟨c, cs, rfl, -, hparts, -⟩ := exists_of_isMemberName h
  intro d hd
  have hvisible := visible_of_isNamePart (hparts d hd)
  exact hq d hvisible.isPrintable (Nat.lt_of_le_of_lt hvisible.greatest (by decide))

/-! ### Characters of texts -/

theorem allOf_hexDigits (width n : Nat) : AllOf q (hexDigits width n) := by
  have hdigits : ∀ e : Fin 16, isPrintable (Numeral.hexDigit e).toUpper = true ∧
      (Numeral.hexDigit e).toUpper.toNat < 0x80 := by decide
  induction width generalizing n with
  | zero => exact allOf_nil
  | succ width ih =>
    obtain ⟨hprint, hascii⟩ := hdigits ⟨n % 16, Nat.mod_lt n (by decide)⟩
    have hdigit := hq _ hprint hascii
    simp [hexDigits, ih, hdigit]

theorem allOf_escape (c : Char) : AllOf q (escape c) := by
  have hbackslash : q '\\' := hq _ rfl (by decide)
  have hdigits := fun width => allOf_hexDigits hq width c.toNat
  unfold escape
  simp only
  split
  · next letter hletter =>
    have hascii : isPrintable letter = true ∧ letter.toNat < 0x80 := by
      unfold escapeLetter? at hletter
      split at hletter
      case h_16 => cases hletter
      all_goals
        cases hletter
        exact ⟨rfl, by decide⟩
    exact allOf_cons.mpr ⟨hbackslash, allOf_cons.mpr ⟨hq letter hascii.1 hascii.2, allOf_nil⟩⟩
  · split
    · exact allOf_cons.mpr ⟨hbackslash, allOf_cons.mpr ⟨hq 'x' rfl (by decide), hdigits 2⟩⟩
    · split
      · exact allOf_cons.mpr ⟨hbackslash, allOf_cons.mpr ⟨hq 'u' rfl (by decide), hdigits 4⟩⟩
      · exact allOf_cons.mpr ⟨hbackslash, allOf_cons.mpr ⟨hq 'U' rfl (by decide), hdigits 8⟩⟩

theorem allOf_doubleQuoted {cs : List Char} (h : ∀ c ∈ cs, isPrintable c = true → q c) :
    AllOf q (cs.flatMap doubleQuotedChar) := by
  induction cs with
  | nil => exact allOf_nil
  | cons c cs ih =>
    obtain ⟨hc, hcs⟩ := List.forall_mem_cons.mp h
    rw [List.flatMap_cons, allOf_append]
    refine ⟨?_, ih hcs⟩
    rcases doubleQuotedChar_cases c with heq | ⟨heq, hprint, -⟩
    · rw [heq]
      exact allOf_escape hq c
    · rw [heq]
      exact allOf_cons.mpr ⟨hc hprint, allOf_nil⟩

theorem allOf_singleQuoted (n : Nat) (behindBreak : Bool) {cs : List Char} (h : AllOf q cs) :
    AllOf q (singleQuotedChars n behindBreak cs) := by
  have hindent : ∀ b : Bool, AllOf q (if b then blanks n else []) := by
    intro b
    split <;> simp [allOf_blanks hq]
  induction cs generalizing behindBreak with
  | nil => exact hindent behindBreak
  | cons c cs ih =>
    obtain ⟨hc, hcs⟩ := allOf_cons.mp h
    unfold singleQuotedChars
    split
    · exact allOf_cons.mpr ⟨hc, ih true hcs⟩
    · have hquote : AllOf q (if c = '\'' then ['\''] else []) := by
        split <;> simp [hq '\'' rfl (by decide)]
      simp [hindent, hquote, hc, ih false hcs]

theorem allOf_literal (n : Nat) (lineStart : Bool) {cs : List Char} (h : AllOf q cs) :
    AllOf q (literalChars n lineStart cs) := by
  induction cs generalizing lineStart with
  | nil => exact allOf_nil
  | cons c cs ih =>
    obtain ⟨hc, hcs⟩ := allOf_cons.mp h
    unfold literalChars
    split
    · exact allOf_cons.mpr ⟨hc, ih true hcs⟩
    · have hindent : AllOf q (if lineStart = true then blanks n else []) := by
        split <;> simp [allOf_blanks hq]
      simp [hindent, hc, ih false hcs]

theorem allOf_blockHeader (cs : List Char) : AllOf q (indentHint cs ++ chompHint cs) := by
  refine allOf_append.mpr ⟨?_, ?_⟩
  · unfold indentHint
    split <;> exact allOf_ascii hq (by decide)
  · unfold chompHint
    split
    · exact allOf_ascii hq (by decide)
    · split <;> exact allOf_ascii hq (by decide)
    · split
      · split <;> exact allOf_ascii hq (by decide)
      · exact allOf_ascii hq (by decide)

/-- A text is written in printable characters of its own and in those of ASCII. -/
theorem allOf_textLines (n : Nat) {s : String} (h : ∀ c ∈ s.toList, isPrintable c = true → q c) :
    AllOf q (textLines n s) := by
  have hnewline : q '\n' := hq _ rfl (by decide)
  unfold textLines
  rcases styleOf_cases s with ⟨hstyle, -, hprint⟩ | ⟨hstyle, -, hplain⟩ |
    ⟨hstyle, hquotable⟩ | hstyle
  · have hbar : q '|' := hq _ rfl (by decide)
    have hheader := allOf_append.mp (allOf_blockHeader hq s.toList)
    have hbody := allOf_literal hq n true fun c hc => h c hc (hprint c hc)
    have hend : AllOf q (if s.toList.getLast?.any isBreak then [] else ['\n']) := by
      split <;> simp [hnewline]
    simp [hstyle, hbar, hheader, hnewline, hbody, hend]
  · have hbody : AllOf q s.toList := fun c hc => h c hc (isPrintable_of_allowsPlain hplain hc)
    simp [hstyle, hnewline, hbody]
  · have hquote : q '\'' := hq _ rfl (by decide)
    have hbody := allOf_singleQuoted hq n false fun c hc => h c hc (hquotable.printable c hc)
    simp [hstyle, hnewline, hquote, hbody]
  · have hquote : q '"' := hq _ rfl (by decide)
    simp [hstyle, hnewline, hquote, allOf_doubleQuoted hq h]

/-! ### Characters of data -/

theorem allOf_itemLines {ds : List Datum} (h : ∀ d ∈ ds, ∀ n, AllOf q (lines n d)) (n : Nat) :
    AllOf q (itemLines n ds) := by
  induction ds with
  | nil => simp [itemLines]
  | cons d ds ih =>
    have hd := h d List.mem_cons_self (n + 2)
    have hds := ih fun e he => h e (List.mem_cons_of_mem _ he)
    simp [itemLines, allOf_blanks hq, hd, hds, hq '-' rfl (by decide), hq ' ' rfl (by decide)]

theorem allOf_memberText {name : String} (hname : isMemberName name.toList = true) {d : Datum}
    (hd : ∀ n, AllOf q (lines n d)) (n : Nat) : AllOf q (memberText n name d) := by
  have hspace : q ' ' := hq _ rfl (by decide)
  have hnewline : q '\n' := hq _ rfl (by decide)
  have hcolon : AllOf q (behindColon n d).1 := by
    unfold behindColon
    split <;> simp [allOf_blanks hq, hspace, hnewline]
  simp [memberText, allOf_memberName hq hname, hcolon, hd, hq ':' rfl (by decide)]

theorem allOf_memberLines {ms : List (String × Datum)}
    (h : ∀ m ∈ ms, isMemberName m.1.toList = true ∧ ∀ n, AllOf q (lines n m.2)) (n : Nat) :
    AllOf q (memberLines n ms) := by
  induction ms with
  | nil => simp [memberLines]
  | cons m ms ih =>
    obtain ⟨name, d⟩ := m
    obtain ⟨hname, hd⟩ := h (name, d) List.mem_cons_self
    have hms := ih fun e he => h e (List.mem_cons_of_mem _ he)
    simp [memberLines, allOf_blanks hq, allOf_memberText hq hname hd, hms]

theorem allOf_leaf {d : Datum} (hd : d.Leaf)
    (h : ∀ s, d.HasText s → ∀ c ∈ s.toList, isPrintable c = true → q c) (n : Nat) :
    AllOf q (lines n d) := by
  cases hd with
  | null | emptyList | emptyRecord =>
    rw [lines]
    exact allOf_ascii hq (by decide)
  | boolean b =>
    cases b <;> rw [lines] <;> exact allOf_ascii hq (by decide)
  | integer =>
    rw [lines]
    exact allOf_append.mpr ⟨allOf_signedDecimal hq _, allOf_ascii hq (by decide)⟩
  | text s =>
    rw [lines]
    exact allOf_textLines hq n (h s .text)

/-- A readable datum is written in printable characters of its texts and in those of ASCII. -/
theorem allOf_lines {depth : Nat} {d : Datum} (h : d.Readable depth)
    (htexts : ∀ s, d.HasText s → ∀ c ∈ s.toList, isPrintable c = true → q c) (n : Nat) :
    AllOf q (lines n d) := by
  induction h using Datum.Readable.induction generalizing n with
  | leaf hd => exact allOf_leaf hq hd htexts n
  | list _ ih =>
    have hparts := fun e he n => ih e he (fun s hs => htexts s (.item he hs)) n
    have hd := hparts _ List.mem_cons_self (n + 2)
    have hds := allOf_itemLines hq (fun e he => hparts e (List.mem_cons_of_mem _ he)) n
    simp [lines, hd, hds, hq '-' rfl (by decide), hq ' ' rfl (by decide)]
  | record h ih =>
    have hparts := fun m hm n => ih m hm (fun s hs => htexts s (.member hm hs)) n
    have hm := allOf_memberText hq (h _ List.mem_cons_self).1 (hparts _ List.mem_cons_self) n
    have hms := allOf_memberLines hq (fun m hm => ⟨(h m (List.mem_cons_of_mem _ hm)).1,
      hparts m (List.mem_cons_of_mem _ hm)⟩) n
    simp [lines, hm, hms]

end

/-- The text of a readable datum holds printable characters only. -/
theorem isPrintable_of_mem_lines {depth : Nat} {d : Datum} (h : d.Readable depth) (n : Nat)
    {c : Char} (hc : c ∈ lines n d) : isPrintable c = true :=
  allOf_lines (fun _ hprint _ => hprint) h (fun _ _ _ _ hprint => hprint) n c hc

end Provisioning.Yaml
