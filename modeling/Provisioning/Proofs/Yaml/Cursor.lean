import Provisioning.Yaml.Printer
import Provisioning.Yaml.Token.Scan

/-! # Moving through YAML text

    How the cursor gets over blanks and line breaks. A text is solid when none of what may stand
    between two tokens starts it. Of the breaks only those that count as themselves in content are
    ever written.
-/

namespace Provisioning.Yaml

/-! ### Characters -/

/-- A break that stands for itself in content. -/
def isKeptBreak (c : Char) : Bool :=
  c == '\n' || isSeparator c

/-- A character that cannot start a token. -/
def isLoose (c : Char) : Bool :=
  isBlank c || isBreak c || c == '#' || isByteOrderMark c

/-- Whether what may stand between two words starts a text. -/
def startsGap (cs : List Char) : Bool :=
  cs.head?.any fun c => isBlank c || isBreak c

/-- A text that ends here or goes on with a token. -/
def Solid (cs : List Char) : Prop :=
  cs.head?.any isLoose = false

theorem isBreak_of_isKeptBreak {c : Char} (h : isKeptBreak c = true) : isBreak c = true := by
  unfold isKeptBreak at h
  unfold isBreak
  rcases Bool.or_eq_true_iff.mp h with h | h <;> simp [h]

theorem isKeptBreak_of_isPrintable {c : Char} (hprint : isPrintable c = true)
    (hbreak : isBreak c = true) : isKeptBreak c = true := by
  simp only [isBreak, isPrintable, Bool.or_eq_true, Bool.and_eq_true, beq_iff_eq,
    decide_eq_true_eq] at hbreak hprint
  unfold isKeptBreak
  rcases hbreak with ((rfl | rfl) | hnext) | hseparator
  · rfl
  · exact absurd hprint (by decide)
  · omega
  · simp [hseparator]

theorem ne_of_isKeptBreak {c : Char} (h : isKeptBreak c = true) : c ≠ '\r' := by
  rintro rfl
  revert h
  decide

theorem not_blank_of_isBreak {c : Char} (h : isBreak c = true) : isBlank c = false := by
  by_cases hblank : isBlank c = true
  · exfalso
    unfold isBlank at hblank
    rcases Bool.or_eq_true_iff.mp hblank with hc | hc
    · obtain rfl := eq_of_beq hc
      revert h
      decide
    · obtain rfl := eq_of_beq hc
      revert h
      decide
  · simpa using hblank

theorem isBlank_eq_isSpace {c : Char} (h : isPrintable c = true) : isBlank c = isSpace c := by
  by_cases htab : c = '\t'
  · subst htab
    exact absurd h (by decide)
  · simp [isBlank, isSpace, htab]

theorem isBlank_of_isSpace {c : Char} (h : isSpace c = true) : isBlank c = true := by
  obtain rfl : c = ' ' := by simpa [isSpace] using h
  rfl

/-- The visible characters of ASCII may stand anywhere in a text. -/
structure Visible (c : Char) : Prop where
  least : 0x21 ≤ c.toNat
  greatest : c.toNat ≤ 0x7e

theorem Visible.isBlank {c : Char} (h : Visible c) : isBlank c = false := by
  have hspace : c ≠ ' ' := by
    rintro rfl
    exact absurd h.least (by decide)
  have htab : c ≠ '\t' := by
    rintro rfl
    exact absurd h.least (by decide)
  simp [Yaml.isBlank, hspace, htab]

theorem Visible.isBreak {c : Char} (h : Visible c) : isBreak c = false := by
  have hnewline : c ≠ '\n' := by
    rintro rfl
    exact absurd h.least (by decide)
  have hreturn : c ≠ '\r' := by
    rintro rfl
    exact absurd h.least (by decide)
  have hcode := h.greatest
  simp only [Yaml.isBreak, isSeparator, Bool.or_eq_false_iff, beq_eq_false_iff_ne]
  refine ⟨⟨⟨hnewline, hreturn⟩, ?_⟩, ?_, ?_⟩ <;> omega

theorem Visible.isPrintable {c : Char} (h : Visible c) : isPrintable c = true := by
  have hlo := h.least
  have hhi := h.greatest
  have hlo' : 0x20 ≤ c.toNat := by omega
  simp [Yaml.isPrintable, hlo', hhi]

theorem Solid.not_any {cs : List Char} (h : Solid cs) {p : Char → Bool}
    (hp : ∀ c, p c = true → isLoose c = true) : cs.head?.any p = false := by
  unfold Solid at h
  cases cs with
  | nil => rfl
  | cons c cs =>
    rw [List.head?_cons, Option.any_some] at h ⊢
    cases hc : p c with
    | false => rfl
    | true =>
      rw [hp c hc] at h
      cases h

theorem Solid.startsGap {cs : List Char} (h : Solid cs) : startsGap cs = false :=
  h.not_any fun c hc => by simp [isLoose, hc]

theorem Solid.blank {cs : List Char} (h : Solid cs) : cs.head?.any isBlank = false :=
  h.not_any fun c hc => by simp [isLoose, hc]

theorem Solid.break {cs : List Char} (h : Solid cs) : cs.head?.any isBreak = false :=
  h.not_any fun c hc => by simp [isLoose, hc]

theorem Solid.mark {cs : List Char} (h : Solid cs) : cs.head?.any isByteOrderMark = false :=
  h.not_any fun c hc => by simp [isLoose, hc]

theorem Solid.comment {cs : List Char} (h : Solid cs) : cs.head? ≠ some '#' := by
  intro heq
  unfold Solid at h
  rw [heq] at h
  exact absurd h (by decide)

/-! ### Runs of characters -/

/-- Every text starts with a longest run of characters that satisfy `p`. -/
theorem exists_run (p : Char → Bool) (cs : List Char) :
    ∃ w rest, cs = w ++ rest ∧ (∀ c ∈ w, p c = true) ∧ rest.head?.any p = false := by
  induction cs with
  | nil => exact ⟨[], [], rfl, by simp, rfl⟩
  | cons c cs ih =>
    by_cases hc : p c = true
    · obtain ⟨w, rest, heq, hw, hrest⟩ := ih
      refine ⟨c :: w, rest, by rw [heq, List.cons_append], ?_, hrest⟩
      intro d hd
      rcases List.mem_cons.mp hd with rfl | hd
      · exact hc
      · exact hw d hd
    · exact ⟨[], c :: cs, rfl, by simp, by simpa using hc⟩

/-- The run at the start of a text is not empty if its first character satisfies `p`. -/
theorem ne_nil_of_run {p : Char → Bool} {c : Char} {cs w rest : List Char} (hc : p c = true)
    (heq : c :: cs = w ++ rest) (hrest : rest.head?.any p = false) : w ≠ [] := by
  rintro rfl
  rw [List.nil_append] at heq
  rw [← heq] at hrest
  simp [hc] at hrest

theorem takeWhile_append_stop {p : Char → Bool} {w rest : List Char} (hw : ∀ c ∈ w, p c = true)
    (hrest : rest.head?.any p = false) : (w ++ rest).takeWhile p = w := by
  rw [List.takeWhile_append_of_pos hw]
  cases rest with
  | nil => simp
  | cons c rest =>
    have hc : ¬ p c = true := by simpa using hrest
    rw [List.takeWhile_cons_of_neg hc, List.append_nil]

@[simp] theorem length_blanks (n : Nat) : (blanks n).length = n := by
  simp [blanks]

theorem eq_of_mem_blanks {n : Nat} {c : Char} (h : c ∈ blanks n) : c = ' ' :=
  List.eq_of_mem_replicate h

/-- Of a predicate on blanks and breaks no character holds where no gap starts. -/
theorem not_any_of_startsGap {p : Char → Bool} {body : List Char} (h : startsGap body = false)
    (hp : ∀ c, p c = true → isBlank c = true ∨ isBreak c = true) :
    body.head?.any p = false := by
  unfold startsGap at h
  cases body with
  | nil => rfl
  | cons c body =>
    simp only [List.head?_cons, Option.any_some, Bool.or_eq_false_iff] at h ⊢
    by_cases hc : p c = true
    · rcases hp c hc with hblank | hbreak
      · rw [h.1] at hblank
        cases hblank
      · rw [h.2] at hbreak
        cases hbreak
    · simpa using hc

theorem head?_ne_tab {cs : List Char} (h : cs.head?.any isBlank = false) :
    cs.head? ≠ some '\t' := by
  intro htab
  rw [htab] at h
  exact absurd h (by decide)

theorem isBlank_of_space {c : Char} (h : (c == ' ') = true) :
    isBlank c = true ∨ isBreak c = true := by
  left
  simp [isBlank, h]

/-! ### Cursors -/

namespace Cursor

@[simp] theorem rest_skip (n : Nat) (c : Cursor) : (c.skip n).rest = c.rest.drop n := rfl

@[simp] theorem line_skip (n : Nat) (c : Cursor) : (c.skip n).line = c.line := rfl

@[simp] theorem column_skip (n : Nat) (c : Cursor) : (c.skip n).column = c.column + n := rfl

@[simp] theorem index_skip (n : Nat) (c : Cursor) : (c.skip n).index = c.index + n := rfl

@[simp] theorem skip_zero (c : Cursor) : c.skip 0 = c := rfl

/-- Behind a character there is less text than in front of it. -/
theorem length_rest_skip_lt {c : Cursor} (h : c.rest ≠ []) {n : Nat} (hn : 0 < n) :
    (c.skip n).rest.length < c.rest.length := by
  have hpos := List.length_pos_iff.mpr h
  rw [rest_skip, List.length_drop]
  omega

/-- The place behind the characters `w` of the line and in front of `rest`. -/
theorem skip_length {c : Cursor} {w rest : List Char} (h : c.rest = w ++ rest) :
    c.skip w.length = ⟨rest, c.index + w.length, c.line, c.column + w.length⟩ := by
  unfold skip
  rw [h, List.drop_left]

/-- The place behind a run of characters that satisfy `p`. -/
theorem skipWhile_append {p : Char → Bool} {c : Cursor} {w rest : List Char}
    (h : c.rest = w ++ rest) (hw : ∀ d ∈ w, p d = true) (hrest : rest.head?.any p = false) :
    c.skipWhile p = ⟨rest, c.index + w.length, c.line, c.column + w.length⟩ := by
  unfold skipWhile
  rw [h, takeWhile_append_stop hw hrest, skip_length h]

theorem skipWhile_stop {p : Char → Bool} {c : Cursor} (h : c.rest.head?.any p = false) :
    c.skipWhile p = c := by
  unfold skipWhile
  have hnone : c.rest.takeWhile p = [] := takeWhile_append_stop (w := []) (by simp) h
  rw [hnone]
  rfl

/-- A break that is kept is taken as it is. -/
theorem takeBreak?_of_kept {c : Cursor} {b : Char} {rest : List Char} (h : c.rest = b :: rest)
    (hb : isKeptBreak b = true) :
    c.takeBreak? = some (b, ⟨rest, c.index + 1, c.line + 1, 0⟩) := by
  have hbreak := isBreak_of_isKeptBreak hb
  have hcontent : (if isSeparator b then b else '\n') = b := by
    unfold isKeptBreak at hb
    by_cases hsep : isSeparator b = true
    · rw [if_pos hsep]
    · have heq : b = '\n' := by simpa [hsep] using hb
      rw [if_neg hsep, heq]
  unfold takeBreak?
  rw [h]
  split
  · next heq => exact absurd (List.cons.inj heq).1 (ne_of_isKeptBreak hb)
  · next heq =>
    obtain ⟨rfl, rfl⟩ := List.cons.inj heq
    rw [if_pos hbreak, hcontent]
  · next heq => cases heq

/-- Where no break starts there is none to take. -/
theorem takeBreak?_eq_none {c : Cursor} (h : c.rest.head?.any isBreak = false) :
    c.takeBreak? = none := by
  unfold takeBreak?
  split
  · next heq =>
    rw [heq] at h
    simp [isBreak] at h
  · next heq =>
    rw [heq] at h
    rw [if_neg (by simpa using h)]
  · rfl

end Cursor

/-! ### Gaps -/

theorem readBreaks_of_not_startsGap (least : Int) (fuel : Nat) {c : Cursor}
    (h : startsGap c.rest = false) : readBreaks least fuel c = some ([], c) := by
  cases fuel with
  | zero => rfl
  | succ fuel =>
    have hbreak := not_any_of_startsGap (p := isBreak) h fun _ => .inr
    rw [readBreaks, Cursor.takeBreak?_eq_none hbreak]

/-- Behind a break the blanks at the start of the next line are skipped. -/
theorem readBreaks_step (least : Int) (fuel : Nat) {b : Char} (hb : isKeptBreak b = true) {k : Nat}
    {rest : List Char} (hrest : rest.head?.any isBlank = false) {c : Cursor}
    (hc : c.rest = b :: (blanks k ++ rest)) :
    readBreaks least (fuel + 1) c =
      (readBreaks least fuel ⟨rest, c.index + 1 + k, c.line + 1, k⟩).map fun r =>
        (b :: r.1, r.2) := by
  have hspace : rest.head?.any (· == ' ') = false := by
    cases rest with
    | nil => rfl
    | cons d rest =>
      simp only [List.head?_cons, Option.any_some, isBlank, Bool.or_eq_false_iff] at hrest ⊢
      exact hrest.1
  have hskip : Cursor.skipWhile (· == ' ') ⟨blanks k ++ rest, c.index + 1, c.line + 1, 0⟩ =
      ⟨rest, c.index + 1 + k, c.line + 1, k⟩ := by
    rw [Cursor.skipWhile_append rfl (fun d hd => by simp [eq_of_mem_blanks hd]) hspace]
    simp
  have hstop : Cursor.skipWhile isBlank ⟨rest, c.index + 1 + k, c.line + 1, k⟩ =
      ⟨rest, c.index + 1 + k, c.line + 1, k⟩ :=
    Cursor.skipWhile_stop hrest
  have htab := head?_ne_tab hrest
  rw [readBreaks, Cursor.takeBreak?_of_kept hc hb]
  simp only [hskip, hstop, htab, false_and, if_false]

/-- Breaks, and the blanks in front of the next word. -/
theorem readBreaks_kept (least : Int) {bs : List Char} (hbs : ∀ b ∈ bs, isKeptBreak b = true)
    (hne : bs ≠ []) {k : Nat} {body : List Char} (hbody : startsGap body = false)
    {fuel : Nat} (hfuel : bs.length ≤ fuel) {c : Cursor} (hc : c.rest = bs ++ (blanks k ++ body)) :
    readBreaks least fuel c =
      some (bs, ⟨body, c.index + bs.length + k, c.line + bs.length, k⟩) := by
  induction bs generalizing fuel c with
  | nil => exact absurd rfl hne
  | cons b bs ih =>
    obtain ⟨fuel, rfl⟩ : ∃ n, fuel = n + 1 := ⟨fuel - 1, by simp at hfuel; omega⟩
    have hfuel : bs.length ≤ fuel := by simpa using hfuel
    have hb := hbs b List.mem_cons_self
    have htail : ∀ b ∈ bs, isKeptBreak b = true := fun b h => hbs b (List.mem_cons_of_mem _ h)
    cases bs with
    | nil =>
      -- The blanks are those of the line on which the next word stands.
      have hblank := not_any_of_startsGap (p := isBlank) hbody fun _ => .inl
      rw [readBreaks_step least fuel hb hblank hc, readBreaks_of_not_startsGap least fuel hbody]
      rfl
    | cons b' bs =>
      -- Another break follows, and between two breaks there are no blanks.
      have hblank : (b' :: bs ++ (blanks k ++ body)).head?.any isBlank = false :=
        not_blank_of_isBreak (isBreak_of_isKeptBreak (htail b' List.mem_cons_self))
      have hstep := readBreaks_step least fuel hb (k := 0) hblank hc
      rw [hstep, ih htail (by simp) hfuel rfl]
      simp only [Option.map_some, List.length_cons]
      congr 3 <;> omega

/-- A gap without breaks. -/
theorem readGap_blanks (least : Int) {w body : List Char} (hw : ∀ c ∈ w, isBlank c = true)
    (hbody : startsGap body = false) {c : Cursor} (hc : c.rest = w ++ body) :
    readGap least c =
      some (⟨w, []⟩, ⟨body, c.index + w.length, c.line, c.column + w.length⟩) := by
  have hblank := not_any_of_startsGap (p := isBlank) hbody fun _ => .inl
  unfold readGap
  simp only
  rw [hc, takeWhile_append_stop hw hblank, Cursor.skip_length hc,
    readBreaks_of_not_startsGap least _ hbody]
  rfl

/-- A gap that starts with a break. -/
theorem readGap_breaks (least : Int) {bs : List Char} (hbs : ∀ b ∈ bs, isKeptBreak b = true)
    (hne : bs ≠ []) {k : Nat} {body : List Char} (hbody : startsGap body = false) {c : Cursor}
    (hc : c.rest = bs ++ (blanks k ++ body)) :
    readGap least c =
      some (⟨[], bs⟩, ⟨body, c.index + bs.length + k, c.line + bs.length, k⟩) := by
  have hblank : c.rest.takeWhile isBlank = [] := by
    obtain ⟨b, bs, rfl⟩ := List.exists_cons_of_ne_nil hne
    have hb := not_blank_of_isBreak (isBreak_of_isKeptBreak (hbs b List.mem_cons_self))
    rw [hc]
    exact List.takeWhile_cons_of_neg (by simp [hb])
  have hlength : bs.length ≤ c.rest.length + 1 := by
    rw [hc, List.length_append]
    omega
  unfold readGap
  simp only [hblank, List.length_nil, Cursor.skip_zero]
  rw [readBreaks_kept least hbs hne hbody hlength hc]
  rfl

end Provisioning.Yaml
