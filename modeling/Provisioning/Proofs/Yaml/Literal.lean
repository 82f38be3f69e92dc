import Provisioning.Proofs.Yaml.Cursor

/-! # Literal blocks

    A literal block is written line by line, with the indentation in front of every line that has
    content. Its reader takes lines until one is indented less. What it makes of the line breaks
    at the end is said by the header, which the writer chooses by how the text ends; and where
    the first line does not show the indentation, the header gives it.
-/

namespace Provisioning.Yaml

/-! ### Writing lines -/

theorem literalChars_breaks (n : Nat) (lineStart : Bool) {bs : List Char} (hne : bs ≠ [])
    (hbs : ∀ b ∈ bs, isBreak b = true) (cs : List Char) :
    literalChars n lineStart (bs ++ cs) = bs ++ literalChars n true cs := by
  induction bs generalizing lineStart with
  | nil => exact absurd rfl hne
  | cons b bs ih =>
    rw [List.cons_append, literalChars, if_pos (hbs b List.mem_cons_self)]
    cases bs with
    | nil => rfl
    | cons b' bs =>
      rw [ih true (by simp) fun c hc => hbs c (List.mem_cons_of_mem _ hc)]
      rfl

/-- Within a line the characters stand as they are. -/
theorem literalChars_line (n : Nat) {l : List Char} (hl : ∀ c ∈ l, isBreak c = false)
    (cs : List Char) : literalChars n false (l ++ cs) = l ++ literalChars n false cs := by
  induction l with
  | nil => rfl
  | cons c l ih =>
    have hc := hl c List.mem_cons_self
    have hrest := ih fun d hd => hl d (List.mem_cons_of_mem _ hd)
    simp [literalChars, hc, hrest]

/-- A line starts behind its indentation. -/
theorem literalChars_lineStart (n : Nat) {cs : List Char} (hne : cs ≠ [])
    (hcs : cs.head?.any isBreak = false) :
    literalChars n true cs = blanks n ++ literalChars n false cs := by
  obtain ⟨c, cs, rfl⟩ := List.exists_cons_of_ne_nil hne
  have hc : isBreak c = false := by simpa using hcs
  simp [literalChars, hc]

/-- The first line with content starts behind its indentation. -/
theorem literalChars_lead (n : Nat) {bs cs : List Char} (hbs : ∀ b ∈ bs, isBreak b = true)
    (hne : cs ≠ []) (hcs : cs.head?.any isBreak = false) :
    literalChars n true (bs ++ cs) = bs ++ (blanks n ++ literalChars n false cs) := by
  cases bs with
  | nil => exact literalChars_lineStart n hne hcs
  | cons b bs => rw [literalChars_breaks n true (by simp) hbs, literalChars_lineStart n hne hcs]

/-- A line goes on with what it starts with. -/
theorem head?_literalChars (n : Nat) {p : Char → Bool} {cs : List Char} (hne : cs ≠ [])
    (hcs : cs.head?.any isBreak = false) (hp : cs.head?.any p = false) (rest : List Char) :
    (literalChars n false cs ++ rest).head?.any p = false := by
  obtain ⟨c, cs, rfl⟩ := List.exists_cons_of_ne_nil hne
  have hc : isBreak c = false := by simpa using hcs
  simpa [literalChars, hc] using hp

/-! ### Lines without content -/

/-- A break at the start of a line is a line without content. -/
theorem readBlockBreaks_step (indent? : Option Nat) (fuel : Nat) {b : Char}
    (hb : isKeptBreak b = true) {rest : List Char} {c : Cursor} (hcolumn : c.column = 0)
    (hc : c.rest = b :: rest) :
    readBlockBreaks indent? (fuel + 1) c =
      (readBlockBreaks indent? fuel ⟨rest, c.index + 1, c.line + 1, 0⟩).map fun r =>
        ⟨b :: r.breaks, r.deepest, r.cursor⟩ := by
  have hblank := not_blank_of_isBreak (isBreak_of_isKeptBreak hb)
  have hspace : b ≠ ' ' := by
    rintro rfl
    exact absurd hblank (by decide)
  have htab : b ≠ '\t' := by
    rintro rfl
    exact absurd hblank (by decide)
  have hnone : c.rest.takeWhile (· == ' ') = [] := by
    rw [hc]
    exact List.takeWhile_cons_of_neg (by simpa using hspace)
  have hhead : (c.rest.head? == some '\t') = false := by
    rw [hc]
    simpa using htab
  have htake := Cursor.takeBreak?_of_kept hc hb
  cases indent? with
  | none =>
    rw [readBlockBreaks.eq_def]
    simp only [hnone, List.length_nil, Cursor.skip_zero, hhead, htake, hcolumn, Bool.and_false,
      Bool.false_eq_true, if_false, Nat.zero_max]
  | some n =>
    rw [readBlockBreaks.eq_def]
    simp only [hnone, List.length_nil, Nat.zero_min, Cursor.skip_zero, hhead, htake, hcolumn,
      Bool.and_false, Bool.false_eq_true, if_false, Nat.zero_max]

/-- Lines without content are passed. -/
theorem readBlockBreaks_breaks (indent? : Option Nat) {bs : List Char}
    (hbs : ∀ b ∈ bs, isKeptBreak b = true) (fuel : Nat) {rest : List Char} {c : Cursor}
    (hcolumn : c.column = 0) (hc : c.rest = bs ++ rest) :
    readBlockBreaks indent? (bs.length + fuel) c =
      (readBlockBreaks indent? fuel ⟨rest, c.index + bs.length, c.line + bs.length, 0⟩).map
        fun r => ⟨bs ++ r.breaks, r.deepest, r.cursor⟩ := by
  induction bs generalizing c with
  | nil =>
    have heq : c = ⟨rest, c.index, c.line, 0⟩ := by
      rw [← hcolumn, ← List.nil_append rest, ← hc]
    rw [List.length_nil, Nat.zero_add, heq]
    cases readBlockBreaks indent? fuel ⟨rest, c.index, c.line, 0⟩ <;> rfl
  | cons b bs ih =>
    have hsplit : c.rest = b :: (bs ++ rest) := hc
    have hstep := readBlockBreaks_step indent? (bs.length + fuel) (hbs b List.mem_cons_self)
      hcolumn hsplit
    have hrest := ih (fun d hd => hbs d (List.mem_cons_of_mem _ hd))
      (c := ⟨bs ++ rest, c.index + 1, c.line + 1, 0⟩) rfl rfl
    have hindex : c.index + 1 + bs.length = c.index + (bs.length + 1) := by omega
    have hline : c.line + 1 + bs.length = c.line + (bs.length + 1) := by omega
    rw [List.length_cons, Nat.add_right_comm, hstep, hrest, hindex, hline]
    cases readBlockBreaks indent? fuel _ <;> rfl

/-- The blanks of a line are passed. They end with the blanks of the line, or at the column that
they are wanted up to. -/
theorem readBlockBreaks_line {indent? : Option Nat} {k : Nat} (hk : ∀ n, indent? = some n → k ≤ n)
    (fuel : Nat) {rest : List Char} (hbreak : rest.head?.any isBreak = false)
    (hgap : indent? = some k ∨ startsGap rest = false) {c : Cursor} (hcolumn : c.column = 0)
    (hc : c.rest = blanks k ++ rest) :
    readBlockBreaks indent? (fuel + 1) c = some ⟨[], k, ⟨rest, c.index + k, c.line, k⟩⟩ := by
  have hskip : c.skip k = ⟨rest, c.index + k, c.line, k⟩ := by
    have hsplit := Cursor.skip_length hc
    rwa [length_blanks, hcolumn, Nat.zero_add] at hsplit
  have hnone : Cursor.takeBreak? ⟨rest, c.index + k, c.line, k⟩ = none :=
    Cursor.takeBreak?_eq_none hbreak
  rw [readBlockBreaks.eq_def]
  rcases hgap with rfl | hgap
  · -- There may be more blanks, which belong to the content.
    have hlength : k ≤ (c.rest.takeWhile (· == ' ')).length := by
      rw [hc, List.takeWhile_append_of_pos fun d hd => by simp [eq_of_mem_blanks hd]]
      simp
    simp only [hcolumn, Nat.sub_zero, Nat.min_eq_right hlength, hskip, hnone, Nat.lt_irrefl,
      decide_false, Bool.false_and, Bool.false_eq_true, if_false]
  · have hspace := not_any_of_startsGap hgap fun _ => isBlank_of_space
    have hblanks : c.rest.takeWhile (· == ' ') = blanks k := by
      rw [hc, takeWhile_append_stop (fun d hd => by simp [eq_of_mem_blanks hd]) hspace]
    have htab : (rest.head? == some '\t') = false := by
      simpa using head?_ne_tab (not_any_of_startsGap hgap fun _ => .inl)
    cases indent? with
    | none =>
      simp only [hblanks, length_blanks, hskip, hnone, htab, Bool.and_false, Bool.false_eq_true,
        if_false]
    | some n =>
      simp only [hblanks, length_blanks, hcolumn, Nat.sub_zero, Nat.min_eq_left (hk n rfl), hskip,
        hnone, htab, Bool.and_false, Bool.false_eq_true, if_false]

/-- Lines without content, and the blanks of the line behind them. -/
theorem exists_readBlockBreaks {indent? : Option Nat} {k : Nat} (hk : ∀ n, indent? = some n → k ≤ n)
    {bs : List Char} (hbs : ∀ b ∈ bs, isKeptBreak b = true) {rest : List Char}
    (hbreak : rest.head?.any isBreak = false) (hgap : indent? = some k ∨ startsGap rest = false)
    {c : Cursor} (hcolumn : c.column = 0) (hc : c.rest = bs ++ (blanks k ++ rest)) :
    ∃ r, readBlockBreaks indent? (c.rest.length + 1) c = some r ∧ r.breaks = bs ∧
      r.cursor.rest = rest ∧ r.cursor.column = k := by
  -- There is fuel for each break and for the line behind them.
  obtain ⟨more, hmore⟩ : ∃ fuel, c.rest.length + 1 = bs.length + (fuel + 1) := by
    refine ⟨c.rest.length - bs.length, ?_⟩
    rw [hc, List.length_append]
    omega
  have hpass := readBlockBreaks_breaks indent? hbs (more + 1) hcolumn hc
  have hline := readBlockBreaks_line hk more hbreak hgap
    (c := ⟨blanks k ++ rest, c.index + bs.length, c.line + bs.length, 0⟩) rfl rfl
  rw [hmore, hpass, hline]
  exact ⟨_, rfl, List.append_nil bs, rfl, rfl⟩

/-- The lines without content in front of a line that reaches the indentation. -/
theorem exists_readBlockBreaks_content {n : Nat} {bs : List Char}
    (hbs : ∀ b ∈ bs, isKeptBreak b = true) {rest : List Char}
    (hrest : rest.head?.any isBreak = false) {c : Cursor} (hcolumn : c.column = 0)
    (hc : c.rest = bs ++ (blanks n ++ rest)) :
    ∃ r, readBlockBreaks (some n) (c.rest.length + 1) c = some r ∧ r.breaks = bs ∧
      r.cursor.rest = rest ∧ r.cursor.column = n := by
  refine exists_readBlockBreaks ?_ hbs hrest (.inl rfl) hcolumn hc
  intro k hk
  exact Nat.le_of_eq (Option.some.inj hk)

/-- The lines without content in front of a line that does not reach the indentation. -/
theorem exists_readBlockBreaks_outside {n m : Nat} (hm : m < n) {bs : List Char}
    (hbs : ∀ b ∈ bs, isKeptBreak b = true) {body : List Char} (hbody : startsGap body = false)
    {c : Cursor} (hcolumn : c.column = 0) (hc : c.rest = bs ++ (blanks m ++ body)) :
    ∃ r, readBlockBreaks (some n) (c.rest.length + 1) c = some r ∧ r.breaks = bs ∧
      r.cursor.rest = body ∧ r.cursor.column = m := by
  refine exists_readBlockBreaks ?_ hbs (not_any_of_startsGap hbody fun _ => .inr) (.inr hbody)
    hcolumn hc
  intro k hk
  obtain rfl := Option.some.inj hk
  exact Nat.le_of_lt hm

/-! ### Breaks at the end -/

/-- What the header has to say of a text that ends with the breaks `bs` behind a line. -/
def chompingOf : (bs : List Char) → Chomping
  | [] => .strip
  | [_] => .clip
  | _ :: _ :: _ => .keep

/-- What is left of a break and the further breaks behind it. -/
def chomped : Chomping → (b : Char) → (bs : List Char) → List Char
  | .strip, _, _ => []
  | .clip, b, _ => [b]
  | .keep, b, bs => b :: bs

/-- All breaks are left under the chomping that they ask for. -/
theorem chomped_chompingOf (b : Char) (bs : List Char) :
    chomped (chompingOf (b :: bs)) b bs = b :: bs := by
  cases bs <;> rfl

/-- However a text is split into its lines and the breaks at the end, the chomping is the one that
the breaks ask for. -/
def Chomps (chomping : Chomping) (cs : List Char) : Prop :=
  ∀ core bs, cs = core ++ bs → core ≠ [] → core.getLast?.any isBreak = false →
    (∀ b ∈ bs, isBreak b = true) → chomping = chompingOf bs

theorem Chomps.suffix {chomping : Chomping} {u v : List Char} (h : Chomps chomping (u ++ v)) :
    Chomps chomping v := by
  intro core bs heq hne hlast hbs
  refine h (u ++ core) bs ?_ ?_ ?_ hbs
  · rw [heq, List.append_assoc]
  · simp [hne]
  · rw [List.getLast?_append, List.getLast?_eq_some_getLast hne]
    rw [List.getLast?_eq_some_getLast hne] at hlast
    exact hlast

/-- The end of the last line. -/
def lastBreak (cs : List Char) : List Char :=
  if cs.getLast?.any isBreak then [] else ['\n']

theorem lastBreak_append (u : List Char) {v : List Char} (hne : v ≠ []) :
    lastBreak (u ++ v) = lastBreak v := by
  unfold lastBreak
  rw [List.getLast?_append, List.getLast?_eq_some_getLast hne]
  rfl

/-! ### Reading lines -/

/-- A line is read with the break behind it and the lines without content that follow. -/
theorem readBlockLines_step {n : Nat} {chomping : Chomping} (fuel : Nat) (first : Option Char)
    (breaks : List Char) (blankBefore : Bool) {l rest : List Char} {b : Char}
    (hl : ∀ c ∈ l, isBreak c = false) (hb : isKeptBreak b = true) {c : Cursor}
    (hcolumn : c.column = n) (hc : c.rest = l ++ b :: rest) {r : BlockBreaks}
    (hr : readBlockBreaks (some n) (rest.length + 1)
      ⟨rest, c.index + l.length + 1, c.line + 1, 0⟩ = some r) :
    readBlockLines true chomping n (fuel + 1) first breaks blankBefore c =
      (readBlockLines true chomping n fuel (some b) r.breaks (startsBlank c.rest) r.cursor).map
        fun t => (first.toList ++ breaks ++ l ++ t.1, t.2) := by
  have hline : c.rest.takeWhile (fun d => !isBreak d) = l := by
    rw [hc]
    refine takeWhile_append_stop (fun d hd => by simp [hl d hd]) ?_
    simp [isBreak_of_isKeptBreak hb]
  have htake : (c.skip l.length).takeBreak? =
      some (b, ⟨rest, c.index + l.length + 1, c.line + 1, 0⟩) := by
    refine Cursor.takeBreak?_of_kept ?_ hb
    rw [Cursor.skip_length hc]
  have hne : c.rest ≠ [] := by simp [hc]
  rw [readBlockLines.eq_def]
  simp only [if_pos (show c.column = n ∧ c.rest ≠ [] from ⟨hcolumn, hne⟩), hline, htake, hr]
  rfl

/-- Where the next line ends the block the breaks behind the last line are chomped. -/
theorem readBlockLines_end {n : Nat} {chomping : Chomping} (fuel : Nat) (first : Option Char)
    (breaks : List Char) (blankBefore : Bool) {c : Cursor} (hcolumn : c.column ≠ n) :
    readBlockLines true chomping n (fuel + 1) first breaks blankBefore c =
      some (match chomping with
        | .strip => []
        | .clip => first.toList
        | .keep => first.toList ++ breaks, c) := by
  rw [readBlockLines.eq_def]
  simp only [hcolumn, false_and, if_false]
  cases chomping <;> rfl

/-- The last line is read with the breaks behind it, of which the chomped ones are left out. -/
theorem readBlockLines_last {n m : Nat} (hm : m < n) {body : List Char}
    (hbody : startsGap body = false) (chomping : Chomping) {fuel : Nat} (first : Option Char)
    (breaks : List Char) (blankBefore : Bool) {l : List Char} (hl : ∀ c ∈ l, isBreak c = false)
    {b : Char} (hb : isKeptBreak b = true) {bs : List Char} (hbs : ∀ c ∈ bs, isKeptBreak c = true)
    {c : Cursor} (hfuel : c.rest.length < fuel) (hcolumn : c.column = n)
    (hc : c.rest = l ++ b :: (bs ++ (blanks m ++ body))) :
    ∃ c', readBlockLines true chomping n fuel first breaks blankBefore c =
        some (first.toList ++ breaks ++ l ++ chomped chomping b bs, c') ∧
      c'.rest = body ∧ c'.column = m := by
  obtain ⟨r, hr, hbreaks, hrest, hm'⟩ := exists_readBlockBreaks_outside hm hbs hbody
    (c := ⟨bs ++ (blanks m ++ body), c.index + l.length + 1, c.line + 1, 0⟩) rfl rfl
  refine ⟨r.cursor, ?_, hrest, hm'⟩
  have hend : r.cursor.column ≠ n := by omega
  obtain ⟨fuel, rfl⟩ : ∃ k, fuel = k + 2 := ⟨fuel - 2, by
    rw [hc, List.length_append, List.length_cons] at hfuel
    omega⟩
  rw [readBlockLines_step (fuel + 1) first breaks blankBefore hl hb hcolumn hc hr,
    readBlockLines_end fuel _ _ _ hend, hbreaks]
  cases chomping <;> rfl

/-- With the given fuel the lines of a text are read from the start of one of them; `first` and
`breaks` are the breaks in front of it. -/
def ReadsLines (chomping : Chomping) (n m fuel : Nat) (body cs : List Char) : Prop :=
  ∀ (first : Option Char) (breaks : List Char) (blankBefore : Bool) (c : Cursor),
    c.rest.length < fuel → c.column = n →
    c.rest = literalChars n false cs ++ (lastBreak cs ++ (blanks m ++ body)) →
    ∃ c', readBlockLines true chomping n fuel first breaks blankBefore c =
        some (first.toList ++ breaks ++ cs, c') ∧ c'.rest = body ∧ c'.column = m

section

variable {n m fuel : Nat} {body l : List Char} (hl : ∀ c ∈ l, isBreak c = false)

include hl

/-- A text that ends with a line; the break behind it is not part of the text. -/
theorem readsLines_line (hm : m < n) (hbody : startsGap body = false) :
    ReadsLines .strip n m fuel body l := by
  intro first breaks blankBefore c hfuel hcolumn hc
  have hlast : lastBreak l = ['\n'] := by
    have hany : l.getLast?.any isBreak = false := by
      cases hget : l.getLast? with
      | none => rfl
      | some e => exact hl e (List.mem_of_getLast? hget)
    unfold lastBreak
    rw [hany]
    rfl
  have hline := literalChars_line n hl []
  rw [List.append_nil] at hline
  rw [hline, hlast] at hc
  have hc : c.rest = l ++ '\n' :: ([] ++ (blanks m ++ body)) := by
    simpa [literalChars] using hc
  have hread := readBlockLines_last hm hbody .strip first breaks blankBefore hl rfl
    (List.forall_mem_nil _) hfuel hcolumn hc
  simpa only [chomped, List.append_nil] using hread

variable {b : Char} {bs : List Char} (hkept : ∀ e ∈ b :: bs, isKeptBreak e = true)

include hkept

/-- A text that ends with a line and breaks, under the chomping that they ask for. -/
theorem readsLines_breaks (hm : m < n) (hbody : startsGap body = false) :
    ReadsLines (chompingOf (b :: bs)) n m fuel body (l ++ b :: bs) := by
  intro first breaks blankBefore c hfuel hcolumn hc
  have hbreaks : ∀ e ∈ b :: bs, isBreak e = true := fun e he => isBreak_of_isKeptBreak (hkept e he)
  have hlast : lastBreak (l ++ b :: bs) = [] := by
    have hmem := hbreaks _ (List.getLast_mem (List.cons_ne_nil b bs))
    rw [lastBreak_append l (List.cons_ne_nil b bs)]
    unfold lastBreak
    rw [List.getLast?_eq_some_getLast (List.cons_ne_nil b bs)]
    exact if_pos hmem
  have hlines := literalChars_breaks n false (List.cons_ne_nil b bs) hbreaks []
  rw [List.append_nil] at hlines
  rw [literalChars_line n hl, hlines, hlast] at hc
  have hc : c.rest = l ++ b :: (bs ++ (blanks m ++ body)) := by
    simpa [literalChars] using hc
  have hread := readBlockLines_last hm hbody (chompingOf (b :: bs)) first breaks blankBefore hl
    (hkept b List.mem_cons_self) (fun e he => hkept e (List.mem_cons_of_mem _ he)) hfuel hcolumn hc
  rw [chomped_chompingOf] at hread
  simpa only [List.append_assoc] using hread

/-- A line and breaks in front of a text whose lines are read. -/
theorem ReadsLines.more {chomping : Chomping} {cs : List Char}
    (h : ReadsLines chomping n m fuel body cs) (hne : cs ≠ [])
    (hcs : cs.head?.any isBreak = false) :
    ReadsLines chomping n m (fuel + 1) body (l ++ b :: (bs ++ cs)) := by
  intro first breaks blankBefore c hfuel hcolumn hc
  have hbreaks : ∀ e ∈ b :: bs, isBreak e = true := fun e he => isBreak_of_isKeptBreak (hkept e he)
  have hlast : lastBreak (l ++ (b :: bs ++ cs)) = lastBreak cs := by
    rw [← List.append_assoc, lastBreak_append _ hne]
  have hstart := head?_literalChars n hne hcs hcs (lastBreak cs ++ (blanks m ++ body))
  rw [literalChars_line n hl, ← List.cons_append,
    literalChars_breaks n false (List.cons_ne_nil b bs) hbreaks, literalChars_lineStart n hne hcs,
    List.cons_append, hlast] at hc
  simp only [List.append_assoc, List.cons_append] at hc
  obtain ⟨r, hr, hread, hrest, hn⟩ := exists_readBlockBreaks_content (n := n)
    (fun e he => hkept e (List.mem_cons_of_mem _ he)) hstart
    (c := ⟨_, c.index + l.length + 1, c.line + 1, 0⟩) rfl rfl
  have hless : r.cursor.rest.length < fuel := by
    rw [hrest]
    rw [hc] at hfuel
    simp only [List.length_append, List.length_cons] at hfuel ⊢
    omega
  obtain ⟨c', hgo, hbody, hm⟩ := h (some b) r.breaks (startsBlank c.rest) r.cursor hless hn hrest
  refine ⟨c', ?_, hbody, hm⟩
  rw [readBlockLines_step fuel first breaks blankBefore hl (hkept b List.mem_cons_self) hcolumn hc
    hr, hgo, hread]
  simp

end

/-- The lines of a text of printable characters are read under the chomping that it asks for. -/
theorem readsLines {n m : Nat} (hm : m < n) {body : List Char} (hbody : startsGap body = false)
    {chomping : Chomping} (fuel : Nat) {cs : List Char} (hne : cs ≠ [])
    (hhead : cs.head?.any isBreak = false) (hprint : ∀ c ∈ cs, isPrintable c = true)
    (hchomps : Chomps chomping cs) : ReadsLines chomping n m fuel body cs := by
  -- The induction is on the fuel, since a line is read at once.
  induction fuel generalizing cs with
  | zero =>
    intro first breaks blankBefore c hfuel
    omega
  | succ fuel ih =>
    obtain ⟨d, cs, rfl⟩ := List.exists_cons_of_ne_nil hne
    have hd : (!isBreak d) = true := by simpa using hhead
    obtain ⟨l, rest, heq, hl, hrest⟩ := exists_run (fun c => !isBreak c) (d :: cs)
    have hlne := ne_nil_of_run hd heq hrest
    have hl : ∀ e ∈ l, isBreak e = false := fun e he => by simpa using hl e he
    have hlast : l.getLast?.any isBreak = false := by
      rw [List.getLast?_eq_some_getLast hlne, Option.any_some]
      exact hl _ (List.getLast_mem hlne)
    rw [heq] at hchomps hprint ⊢
    cases rest with
    | nil =>
      obtain rfl : chomping = .strip := hchomps l [] rfl hlne hlast (by simp)
      rw [List.append_nil]
      exact readsLines_line hl hm hbody
    | cons b rest =>
      have hb : isBreak b = true := by simpa using hrest
      obtain ⟨bs, cs', rfl, hbs, hcs'⟩ := exists_run isBreak rest
      have hbreaks : ∀ e ∈ b :: bs, isBreak e = true := List.forall_mem_cons.mpr ⟨hb, hbs⟩
      have hkept : ∀ e ∈ b :: bs, isKeptBreak e = true := by
        intro e he
        refine isKeptBreak_of_isPrintable (hprint e ?_) (hbreaks e he)
        rw [← List.cons_append]
        exact List.mem_append_right _ (List.mem_append_left _ he)
      by_cases hend : cs' = []
      · subst hend
        rw [List.append_nil] at hchomps ⊢
        obtain rfl : chomping = chompingOf (b :: bs) := hchomps l (b :: bs) rfl hlne hlast hbreaks
        exact readsLines_breaks hl hkept hm hbody
      · have hsuffix : l ++ b :: (bs ++ cs') = (l ++ b :: bs) ++ cs' := by simp
        rw [hsuffix] at hchomps hprint
        have hread := ih hend hcs' (fun e he => hprint e (List.mem_append_right _ he))
          hchomps.suffix
        exact hread.more hl hkept hend hcs'

/-! ### Headers -/

/-- How the chomping is written in a header. -/
def chompMark : Chomping → List Char
  | .strip => ['-']
  | .clip => []
  | .keep => ['+']

theorem chompMark_injective {a b : Chomping} (h : chompMark a = chompMark b) : a = b := by
  cases a <;> cases b <;> first | rfl | cases h

theorem exists_chompMark (cs : List Char) : ∃ chomping, chompHint cs = chompMark chomping := by
  unfold chompHint
  split
  · exact ⟨.strip, rfl⟩
  · next c _ =>
    by_cases hc : isBreak c = true
    · exact ⟨.keep, if_pos hc⟩
    · exact ⟨.strip, if_neg hc⟩
  · next c d _ _ =>
    by_cases hc : isBreak c = true
    · by_cases hd : isBreak d = true
      · exact ⟨.keep, by rw [if_pos hc, if_pos hd]; rfl⟩
      · exact ⟨.clip, by rw [if_pos hc, if_neg hd]; rfl⟩
    · exact ⟨.strip, if_neg hc⟩

/-- The header asks for what is kept of the breaks at the end. -/
theorem chompHint_append {core bs : List Char} (hne : core ≠ [])
    (hlast : core.getLast?.any isBreak = false) (hbs : ∀ b ∈ bs, isBreak b = true) :
    chompHint (core ++ bs) = chompMark (chompingOf bs) := by
  obtain ⟨x, core', hcore⟩ := List.exists_cons_of_ne_nil (List.reverse_ne_nil_iff.mpr hne)
  have hx : isBreak x = false := by
    rw [List.getLast?_eq_head?_reverse, hcore] at hlast
    simpa using hlast
  have hbs' : ∀ b ∈ bs.reverse, isBreak b = true := fun b hb => hbs b (List.mem_reverse.mp hb)
  unfold chompHint
  rw [List.reverse_append, hcore]
  rcases hrev : bs.reverse with _ | ⟨b, _ | ⟨d, more⟩⟩
  · obtain rfl : bs = [] := List.reverse_eq_nil_iff.mp hrev
    cases core' <;> simp [hx, chompingOf, chompMark]
  · obtain rfl : bs = [b] := by simpa using congrArg List.reverse hrev
    simp [hbs b List.mem_cons_self, hx, chompingOf, chompMark]
  · rw [hrev] at hbs'
    have hb := hbs' b List.mem_cons_self
    have hd := hbs' d (by simp)
    have hlength := congrArg List.length hrev
    have hkeep : chompingOf bs = .keep := by
      rcases bs with _ | ⟨a, _ | ⟨a', bs⟩⟩
      · cases hlength
      · simp at hlength
      · rfl
    simp [hb, hd, hkeep, chompMark]

/-- The header of a text of breaks asks for all of them. -/
theorem chompHint_breaks {bs : List Char} (hne : bs ≠ []) (hbs : ∀ b ∈ bs, isBreak b = true) :
    chompHint bs = chompMark .keep := by
  have hbs' : ∀ b ∈ bs.reverse, isBreak b = true := fun b hb => hbs b (List.mem_reverse.mp hb)
  unfold chompHint
  rcases hrev : bs.reverse with _ | ⟨b, _ | ⟨d, more⟩⟩
  · exact absurd (List.reverse_eq_nil_iff.mp hrev) hne
  · rw [hrev] at hbs'
    simp [hbs' b List.mem_cons_self, chompMark]
  · rw [hrev] at hbs'
    simp [hbs' b List.mem_cons_self, hbs' d (by simp), chompMark]

/-- A header is read up to the end of its line. -/
theorem readBlockHeader_marks (hinted : Bool) (chomping : Chomping) {rest : List Char} {c : Cursor}
    (hc : c.rest = (if hinted then ['2'] else []) ++ (chompMark chomping ++ '\n' :: rest)) :
    ∃ c', readBlockHeader c = some (⟨chomping, if hinted then some 2 else none⟩, c') ∧
      c'.rest = '\n' :: rest := by
  have hdigit : decimalDigit? '2' = some 2 := by decide
  have hnewline : decimalDigit? '\n' = none := by decide
  unfold readBlockHeader
  cases hinted <;> cases chomping <;>
    simp only [Bool.false_eq_true, if_false, if_true, chompMark, List.nil_append,
      List.cons_append] at hc <;>
    simp [hc, chomping?, hdigit, hnewline]

/-- The rest of the line of a header is its break. -/
theorem finishLine?_newline {rest : List Char} {c : Cursor} (hc : c.rest = '\n' :: rest) :
    c.finishLine? = some ⟨rest, c.index + 1, c.line + 1, 0⟩ := by
  have hblank : c.skipWhile isBlank = c := by
    refine Cursor.skipWhile_stop ?_
    rw [hc]
    rfl
  have hcomment : c.skipComment = c := by
    unfold Cursor.skipComment
    rw [hc]
    rfl
  unfold Cursor.finishLine?
  simp only [hblank, hcomment, Cursor.takeBreak?_of_kept hc (by decide)]
  rw [hc]
  rfl

/-! ### Whole blocks -/

section

variable {outer m : Nat} (hm : m ≤ outer) {body : List Char} (hbody : startsGap body = false)
  {chomping : Chomping} {cs : List Char} (hne : cs ≠ []) (hprint : ∀ c ∈ cs, isPrintable c = true)
  (hchomps : Chomps chomping cs) {c : Cursor} (hcolumn : c.column = 0)
  (hc : c.rest = literalChars (outer + 2) true cs ++ (lastBreak cs ++ (blanks m ++ body)))

include hm hbody hne hprint hchomps hcolumn hc

/-- The lines of a text are read if their indentation is given. -/
theorem readBlock_given (hbreaks : (∀ c ∈ cs, isBreak c = true) → chomping = .keep) :
    ∃ lead c', readBlockBreaks (some (outer + 2)) (c.rest.length + 1) c = some lead ∧
      readBlockLines true chomping (outer + 2) (lead.cursor.rest.length + 1) none lead.breaks false
        lead.cursor = some (cs, c') ∧ c'.rest = body ∧ c'.column = m := by
  obtain ⟨bs, rest, heq, hbs, hrest⟩ := exists_run isBreak cs
  have hkept : ∀ b ∈ bs, isKeptBreak b = true := by
    intro b hb
    exact isKeptBreak_of_isPrintable (hprint b (by simp [heq, hb])) (hbs b hb)
  by_cases hend : rest = []
  · -- There is nothing but breaks, and all of them are kept.
    rw [hend, List.append_nil] at heq
    subst heq
    have hlast : lastBreak cs = [] := by
      unfold lastBreak
      rw [List.getLast?_eq_some_getLast hne]
      exact if_pos (hbs _ (List.getLast_mem hne))
    have hlines : literalChars (outer + 2) true cs = cs := by
      have hall := literalChars_breaks (outer + 2) true hne hbs []
      simpa [literalChars] using hall
    rw [hlast, hlines] at hc
    obtain ⟨r, hr, hbreaks', hbody', hm'⟩ :=
      exists_readBlockBreaks_outside (by omega : m < outer + 2) hkept hbody hcolumn hc
    refine ⟨r, r.cursor, hr, ?_, hbody', hm'⟩
    rw [readBlockLines_end _ _ _ _ (by omega), hbreaks hbs, hbreaks']
    rfl
  · -- Breaks and a first line with content.
    have hlast : lastBreak cs = lastBreak rest := by rw [heq, lastBreak_append bs hend]
    have hstart := head?_literalChars (outer + 2) hend hrest hrest
      (lastBreak rest ++ (blanks m ++ body))
    rw [hlast, heq, literalChars_lead (outer + 2) hbs hend hrest, List.append_assoc,
      List.append_assoc] at hc
    obtain ⟨r, hr, hbreaks', hrest', hn⟩ :=
      exists_readBlockBreaks_content hkept hstart hcolumn hc
    rw [heq] at hchomps hprint
    have hlines := readsLines (by omega : m < outer + 2) hbody (r.cursor.rest.length + 1) hend
      hrest (fun e he => hprint e (List.mem_append_right _ he)) hchomps.suffix
    obtain ⟨c', hgo, hbody', hm'⟩ := hlines none r.breaks false r.cursor (Nat.lt_succ_self _) hn
      hrest'
    refine ⟨r, c', hr, ?_, hbody', hm'⟩
    rw [hgo, hbreaks', heq]
    rfl

/-- The lines of a text are read if the first one shows their indentation. -/
theorem readBlock_shown (hstart : startsGap cs = false) :
    ∃ lead c', readBlockBreaks none (c.rest.length + 1) c = some lead ∧
      lead.deepest = outer + 2 ∧
      readBlockLines true chomping (outer + 2) (lead.cursor.rest.length + 1) none lead.breaks false
        lead.cursor = some (cs, c') ∧ c'.rest = body ∧ c'.column = m := by
  have hbreak := not_any_of_startsGap (p := isBreak) hstart fun _ => .inr
  have hgap : startsGap (literalChars (outer + 2) false cs ++
      (lastBreak cs ++ (blanks m ++ body))) = false :=
    head?_literalChars (outer + 2) hne hbreak hstart _
  rw [literalChars_lineStart (outer + 2) hne hbreak, List.append_assoc] at hc
  have hk : ∀ n, none = some n → outer + 2 ≤ n := nofun
  have hlead := readBlockBreaks_line hk c.rest.length
    (not_any_of_startsGap hgap fun _ => .inr) (.inr hgap) hcolumn hc
  have hlines := readsLines (by omega : m < outer + 2) hbody ((literalChars (outer + 2) false cs ++
    (lastBreak cs ++ (blanks m ++ body))).length + 1) hne hbreak hprint hchomps
  obtain ⟨c', hgo, hbody', hm'⟩ := hlines none [] false
    ⟨_, c.index + (outer + 2), c.line, outer + 2⟩ (Nat.lt_succ_self _) rfl rfl
  exact ⟨_, c', hlead, rfl, hgo, hbody', hm'⟩

end

/-- A text of printable characters is read back from a literal block. -/
theorem readBlock_text {outer m : Nat} (hm : m ≤ outer) {body : List Char}
    (hbody : startsGap body = false) {cs : List Char} (hne : cs ≠ [])
    (hprint : ∀ c ∈ cs, isPrintable c = true) {c : Cursor}
    (hc : c.rest = indentHint cs ++ (chompHint cs ++ '\n' ::
      (literalChars (outer + 2) true cs ++ (lastBreak cs ++ (blanks m ++ body))))) :
    ∃ c', readBlock true outer c = some (cs, c') ∧ c'.rest = body ∧ c'.column = m := by
  obtain ⟨chomping, hchomp⟩ := exists_chompMark cs
  have hchomps : Chomps chomping cs := by
    intro core bs heq hcore hlast hbs
    refine chompMark_injective ?_
    rw [← hchomp, heq, chompHint_append hcore hlast hbs]
  have hbreaks : (∀ c ∈ cs, isBreak c = true) → chomping = .keep := by
    intro hbs
    refine chompMark_injective ?_
    rw [← hchomp, chompHint_breaks hne hbs]
  have hhint : indentHint cs = if startsGap cs then ['2'] else [] := by
    obtain ⟨d, cs, rfl⟩ := List.exists_cons_of_ne_nil hne
    have hblank := isBlank_eq_isSpace (hprint d List.mem_cons_self)
    simp [indentHint, startsGap, hblank]
  rw [hhint, hchomp] at hc
  obtain ⟨c₁, hheader, hc₁⟩ := readBlockHeader_marks (startsGap cs) chomping hc
  have hfinish := finishLine?_newline hc₁
  unfold readBlock
  rw [hheader]
  simp only [Option.bind_eq_bind, Option.bind_some, hfinish]
  -- The header gives the indentation exactly where the first line does not show it.
  by_cases hgap : startsGap cs = true
  · have hgiven : blockIndent outer (some 2) = some (outer + 2) := by simp [blockIndent]
    obtain ⟨lead, c', hlead, hlines, hbody', hm'⟩ :=
      readBlock_given hm hbody hne hprint hchomps rfl rfl hbreaks
        (c := ⟨_, c₁.index + 1, c₁.line + 1, 0⟩)
    refine ⟨c', ?_, hbody', hm'⟩
    simp only [hgap, if_true, hgiven, Option.getD_some]
    rw [hlead]
    exact hlines
  · have hgap : startsGap cs = false := by simpa using hgap
    have hgiven : blockIndent outer none = none := rfl
    obtain ⟨lead, c', hlead, hdeepest, hlines, hbody', hm'⟩ :=
      readBlock_shown hm hbody hne hprint hchomps rfl rfl hgap
        (c := ⟨_, c₁.index + 1, c₁.line + 1, 0⟩)
    have hindent : max (max lead.deepest ((outer : Int) + 1).toNat) 1 = outer + 2 := by omega
    refine ⟨c', ?_, hbody', hm'⟩
    simp only [hgap, Bool.false_eq_true, if_false, hgiven, Option.getD_none]
    rw [hlead, Option.bind_some, hindent]
    exact hlines

end Provisioning.Yaml
