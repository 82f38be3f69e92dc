import Provisioning.Proofs.Yaml.Printer
import Provisioning.Proofs.Yaml.Step

/-! # YAML text is read as the tokens that it was written for

    A datum is written between a column and the line of what follows it, which is not indented
    deeper than the block around the datum. So a datum is read when its tokens are there and the
    scanner is in front of the next line, where it has closed the blocks of the datum.

    Main statement: `scan?_lines`, that the text of a record with members is read as its tokens.
-/

namespace Provisioning.Yaml

/-! ### The tokens of data -/

/-- The key of a member. -/
def keyTokens (name : String) : List Token :=
  [.key, .scalar name .plain, .value]

mutual

/-- The tokens of a datum. A list that is not indented has no tokens of its own. -/
def tokensOf (unindented : Bool) : Datum → List Token
  | .null => [.scalar "null" .plain]
  | .boolean true => [.scalar "true" .plain]
  | .boolean false => [.scalar "false" .plain]
  | .integer i => [.scalar (String.ofList (Numeral.signedDecimal i)) .plain]
  | .text s => [.scalar s (styleOf s)]
  | .list [] => [.flowSequenceStart, .flowSequenceEnd]
  | .list (d :: rest) =>
    if unindented then .blockEntry :: (tokensOf false d ++ itemTokens rest)
    else .blockSequenceStart ::
      ((.blockEntry :: (tokensOf false d ++ itemTokens rest)) ++ [.blockEnd])
  | .record [] => [.flowMappingStart, .flowMappingEnd]
  | .record ((name, d) :: rest) =>
    .blockMappingStart ::
      ((keyTokens name ++ (tokensOf true d ++ memberTokens rest)) ++ [.blockEnd])

/-- The tokens of items. -/
def itemTokens : List Datum → List Token
  | [] => []
  | d :: rest => .blockEntry :: (tokensOf false d ++ itemTokens rest)

/-- The tokens of members. -/
def memberTokens : List (String × Datum) → List Token
  | [] => []
  | (name, d) :: rest => keyTokens name ++ (tokensOf true d ++ memberTokens rest)

end

theorem behindColon_of_leaf {d : Datum} (hd : d.Leaf) (n : Nat) :
    behindColon n d = ([' '], n + 2) := by
  cases hd <;> rfl

theorem tokensOf_of_leaf {d : Datum} (hd : d.Leaf) : tokensOf true d = tokensOf false d := by
  cases hd with
  | boolean b => cases b <;> rfl
  | null | integer | text | emptyList | emptyRecord => rfl

theorem atGap_behindColon (n : Nat) (d : Datum) (tail : List Char) :
    atGap ((behindColon n d).1 ++ tail) = true := by
  cases d with
  | null | boolean | integer | text => rfl
  | list ds => cases ds <;> rfl
  | record ms => cases ms <;> rfl

namespace Scan

/-! ### Scalars -/

/-- From the end of a line the scanner comes to the next one. -/
theorem Leads.line {P : Scan → Prop} {m : Nat} {body : List Char} {b : Blocks}
    (h : Leads P (Behind ('\n' :: (blanks m ++ body)) b)) (hbody : Solid body) :
    Leads P (Next m true body (b.close m)) := by
  intro s hs
  obtain ⟨s', hreach, hbehind⟩ := h s hs
  exact ⟨s', hreach, hbehind.next hbody⟩

section

variable {n m : Nat} {body : List Char} {b : Blocks} (hm : m ≤ n) (hbody : Solid body)
  (hb : b.Inside n)

include hm hbody hb

/-- A text is read back in the style that it is written in. -/
theorem leads_text (s : String) :
    Leads (Right n (textLines (n + 2) s ++ (blanks m ++ body)) b)
      (Next m true body ((b.push [.scalar s (styleOf s)]).close m)) := by
  unfold textLines
  rcases styleOf_cases s with ⟨hstyle, hne, hprint⟩ | ⟨hstyle, htext, hplain⟩ |
    ⟨hstyle, hquotable⟩ | hstyle
  · have hread := leads_literal hm hbody hb hne hprint
    rw [String.ofList_toList] at hread
    simp only [hstyle, List.cons_append, List.append_assoc]
    exact hread
  · have hread := leads_plain hm hbody hb hplain (ne_nil_of_isTextWhenPlain htext)
    rw [String.ofList_toList] at hread
    simp only [hstyle, List.append_assoc]
    exact hread
  · have hread := leads_quoted hb token_singleQuote s
      (singleQuotedChars (n + 2) false s.toList) ('\n' :: (blanks m ++ body))
      fun c hc hcolumn => readsSingle (by omega) (by simp) _ hquotable c (Nat.lt_succ_self _)
        hcolumn hc
    simp only [hstyle, List.cons_append, List.append_assoc, List.nil_append]
    exact hread.line hbody
  · have hread := leads_quoted hb token_doubleQuote s
      (s.toList.flatMap doubleQuotedChar) ('\n' :: (blanks m ++ body))
      fun c hc hcolumn => by
        obtain ⟨c', htext, hrest, hline⟩ := readsDouble _ _ _ c (Nat.lt_succ_self _) hcolumn hc
        exact ⟨c', htext, hrest, Nat.le_of_eq hline.symm⟩
    simp only [hstyle, List.cons_append, List.append_assoc, List.nil_append]
    exact hread.line hbody

/-- A datum that has no parts is read in its line. -/
theorem leads_leaf {d : Datum} (hd : d.Leaf) :
    Leads (Right n (lines (n + 2) d ++ (blanks m ++ body)) b)
      (Next m true body ((b.push (tokensOf false d)).close m)) := by
  cases hd with
  | null =>
    rw [lines, tokensOf]
    exact leads_plain hm hbody hb (show allowsPlain "null".toList = true from rfl) (by decide)
  | boolean b =>
    cases b with
    | true =>
      rw [lines, tokensOf]
      exact leads_plain hm hbody hb (show allowsPlain "true".toList = true from rfl) (by decide)
    | false =>
      rw [lines, tokensOf]
      exact leads_plain hm hbody hb (show allowsPlain "false".toList = true from rfl) (by decide)
  | integer =>
    rw [lines, tokensOf, List.append_assoc]
    exact leads_plain hm hbody hb (allowsPlain_signedDecimal _) (signedDecimal_ne_nil _)
  | text s =>
    rw [lines, tokensOf]
    exact leads_text hm hbody hb s
  | emptyList =>
    rw [lines, tokensOf]
    exact (leads_emptyList hb _).line hbody
  | emptyRecord =>
    rw [lines, tokensOf]
    exact (leads_emptyRecord hb _).line hbody

end

/-! ### Items and members -/

/-- A datum that is read wherever it may stand: as an item, from a column in which a block may be
opened, and behind the colon of a member. -/
structure Scans (d : Datum) : Prop where
  solid : ∀ (n : Nat) (tail : List Char), Solid (lines n d ++ tail)
  item : ∀ {n m : Nat} {body : List Char} {b : Blocks}, m ≤ n → Solid body → b.Inside n →
    Leads (Next (n + 2) true (lines (n + 2) d ++ (blanks m ++ body)) b)
      (Next m true body ((b.push (tokensOf false d)).close m))
  value : ∀ {n m : Nat} {body : List Char} {b : Blocks}, m ≤ n → Solid body → b.Inside n →
    Leads (fun s => ∃ column, n < column ∧ At column false
        ((behindColon n d).1 ++ (lines (behindColon n d).2 d ++ (blanks m ++ body))) b s)
      (Next m true body ((b.push (tokensOf true d)).close m))

section

variable {n m : Nat} {body : List Char} {b : Blocks} (hm : m ≤ n) (hbody : Solid body)
  (hb : b.indent ≤ n)

include hm hbody hb

/-- The dash of an item and the item. -/
theorem leads_item {d : Datum} (hd : Scans d) :
    Leads (Next n true ('-' :: ' ' :: (lines (n + 2) d ++ (blanks m ++ body))) b)
      (Next m true body
        (((b.enter .blockSequenceStart n).push (.blockEntry :: tokensOf false d)).close m)) := by
  have hinside := (Blocks.inside_enter .blockSequenceStart hb).push [.blockEntry]
  have hread := (leads_dash (hd.solid _ _) hb).trans (hd.item hm hbody hinside)
  rw [Blocks.push_push] at hread
  exact hread

/-- One or more items are read if each of them is. -/
theorem leads_items {d : Datum} {ds : List Datum} (hd : Scans d) (hds : ∀ d ∈ ds, Scans d) :
    Leads
      (Next n true ('-' :: ' ' :: (lines (n + 2) d ++ (itemLines n ds ++ (blanks m ++ body)))) b)
      (Next m true body
        (((b.enter .blockSequenceStart n).push (itemTokens (d :: ds))).close m)) := by
  -- The induction is on the items behind the first one, for any blocks around them.
  induction ds generalizing d b with
  | nil =>
    have hread := leads_item hm hbody hb hd
    simpa only [itemLines, itemTokens, List.nil_append, List.append_nil] using hread
  | cons d' ds ih =>
    have hinside := (Blocks.inside_enter .blockSequenceStart hb).push
      (.blockEntry :: tokensOf false d)
    have hread := leads_item (Nat.le_refl n) (solid_cons (c := '-') rfl
      (' ' :: (lines (n + 2) d' ++ (itemLines n ds ++ (blanks m ++ body))))) hb hd
    -- The next dash is in the column of the block, which stays open.
    rw [Blocks.close_of_le (Int.le_of_eq hinside.indent)] at hread
    have hmore := ih (Int.le_of_eq hinside.indent) (hds d' List.mem_cons_self)
      fun e he => hds e (List.mem_cons_of_mem _ he)
    rw [Blocks.enter_of_inside hinside, Blocks.push_push] at hmore
    simpa only [itemLines, itemTokens, List.nil_append, List.append_assoc, List.cons_append]
      using hread.trans hmore

/-- The name of a member with its colon, and the value. -/
theorem leads_member {name : String} (hname : isMemberName name.toList = true) {d : Datum}
    (hd : Scans d) :
    Leads (Next n true (memberText n name d ++ (blanks m ++ body)) b)
      (Next m true body
        (((b.enter .blockMappingStart n).push (keyTokens name ++ tokensOf true d)).close m)) := by
  have hinside := (Blocks.inside_enter .blockMappingStart hb).push (keyTokens name)
  have hkey := leads_key hname (atGap_behindColon n d (lines (behindColon n d).2 d ++
    (blanks m ++ body))) hb
  rw [String.ofList_toList] at hkey
  have hread := hkey.trans (hd.value hm hbody hinside)
  rw [Blocks.push_push] at hread
  simp only [memberText, List.append_assoc, List.cons_append]
  exact hread

/-- One or more members are read if each of them is. -/
theorem leads_members {name : String} (hname : isMemberName name.toList = true) {d : Datum}
    (hd : Scans d) {ms : List (String × Datum)}
    (hms : ∀ m ∈ ms, isMemberName m.1.toList = true ∧ Scans m.2) :
    Leads (Next n true (memberText n name d ++ (memberLines n ms ++ (blanks m ++ body))) b)
      (Next m true body
        (((b.enter .blockMappingStart n).push (memberTokens ((name, d) :: ms))).close m)) := by
  induction ms generalizing name d b with
  | nil =>
    have hread := leads_member hm hbody hb hname hd
    simpa only [memberLines, memberTokens, List.nil_append, List.append_nil] using hread
  | cons other ms ih =>
    obtain ⟨name', d'⟩ := other
    obtain ⟨hname', hd'⟩ := hms (name', d') List.mem_cons_self
    have hinside := (Blocks.inside_enter .blockMappingStart hb).push
      (keyTokens name ++ tokensOf true d)
    have hsolid : Solid (memberText n name' d' ++ (memberLines n ms ++ (blanks m ++ body))) := by
      rw [memberText, List.append_assoc]
      exact solid_of_isMemberName hname' _
    have hread := leads_member (Nat.le_refl n) hsolid hb hname hd
    -- The next name is in the column of the block, which stays open.
    rw [Blocks.close_of_le (Int.le_of_eq hinside.indent)] at hread
    have hmore := ih (Int.le_of_eq hinside.indent) hname' hd'
      fun e he => hms e (List.mem_cons_of_mem _ he)
    rw [Blocks.enter_of_inside hinside, Blocks.push_push] at hmore
    simpa only [memberLines, memberTokens, List.nil_append, List.append_assoc, List.cons_append]
      using hread.trans hmore

end

/-! ### Data -/

section

variable {depth : Nat}

/-- A datum without parts is read wherever it may stand. -/
theorem scans_of_leaf {d : Datum} (hd : d.Leaf) : Scans d where
  solid n tail := solid_leaf hd n tail
  item {n m body b} hm hbody hb := by
    intro s hs
    exact leads_leaf hm hbody hb hd s ⟨n + 2, true, by omega, hs⟩
  value {n m body b} hm hbody hb := by
    have hindent := hb.indent
    rw [behindColon_of_leaf hd, tokensOf_of_leaf hd]
    intro s hs
    obtain ⟨column, hlt, hat⟩ := hs
    have hnext := hat.blank (solid_leaf hd (n + 2) (blanks m ++ body)) (by omega)
    exact leads_leaf hm hbody hb hd s ⟨column + 1, false, by omega, hnext⟩

/-- A list with items is read if each of them is. -/
theorem scans_list {d : Datum} {ds : List Datum} (h : ∀ e ∈ d :: ds, Scans e) :
    Scans (.list (d :: ds)) where
  solid n tail := by
    rw [lines]
    exact solid_cons rfl _
  item {n m body b} hm hbody hb := by
    have hindent := hb.indent
    have hread := leads_items (n := n + 2) (b := b) (by omega : m ≤ n + 2) hbody (by omega)
      (h d List.mem_cons_self) fun e he => h e (List.mem_cons_of_mem _ he)
    rw [Blocks.close_enter _ (by omega) (by omega)] at hread
    rw [lines, tokensOf]
    simpa [itemTokens] using hread
  value {n m body b} hm hbody hb := by
    have hindent := hb.indent
    -- Behind a colon the items are not indented, so they open no block of their own.
    have hread := leads_items hm hbody (Int.le_of_eq hindent) (h d List.mem_cons_self)
      fun e he => h e (List.mem_cons_of_mem _ he)
    rw [Blocks.enter_of_inside hb] at hread
    intro s hs
    obtain ⟨column, -, hat⟩ := hs
    simp only [behindColon, lines, List.cons_append, List.append_assoc] at hat
    have hnext := hat.behind.next (solid_cons rfl _)
    rw [Blocks.close_of_le (Int.le_of_eq hindent)] at hnext
    obtain ⟨s', hreach, hnext'⟩ := hread s hnext
    refine ⟨s', hreach, ?_⟩
    rw [tokensOf]
    simpa [itemTokens] using hnext'

/-- A record with members is read from the column of its names, in which it opens a block. -/
theorem leads_record {name : String} {d : Datum} {ms : List (String × Datum)}
    (h : ∀ m ∈ (name, d) :: ms, isMemberName m.1.toList = true ∧ Scans m.2) {n m : Nat}
    {body : List Char} {b : Blocks} (hm : m ≤ n) (hbody : Solid body) (hb : b.Inside n)
    (unindented : Bool) :
    Leads (Next (n + 2) true (lines (n + 2) (.record ((name, d) :: ms)) ++ (blanks m ++ body)) b)
      (Next m true body
        ((b.push (tokensOf unindented (.record ((name, d) :: ms)))).close m)) := by
  have hindent := hb.indent
  obtain ⟨hname, hd⟩ := h (name, d) List.mem_cons_self
  have hread := leads_members (n := n + 2) (b := b) (by omega : m ≤ n + 2) hbody (by omega) hname hd
    fun e he => h e (List.mem_cons_of_mem _ he)
  rw [Blocks.close_enter _ (by omega) (by omega)] at hread
  rw [lines, tokensOf, List.append_assoc]
  simpa [memberTokens] using hread

/-- A record with members is read if each of them is. -/
theorem scans_record {name : String} {d : Datum} {ms : List (String × Datum)}
    (h : ∀ m ∈ (name, d) :: ms, isMemberName m.1.toList = true ∧ Scans m.2) :
    Scans (.record ((name, d) :: ms)) where
  solid n tail := solid_lines_record (h (name, d) List.mem_cons_self).1 n tail
  item hm hbody hb := leads_record h hm hbody hb false
  value {n m body b} hm hbody hb := by
    have hindent := hb.indent
    intro s hs
    obtain ⟨column, -, hat⟩ := hs
    simp only [behindColon, List.cons_append] at hat
    have hname := (h (name, d) List.mem_cons_self).1
    have hnext := hat.behind.next (solid_lines_record hname (n + 2) (blanks m ++ body))
    rw [Blocks.close_of_le (by omega)] at hnext
    exact leads_record h hm hbody hb true s hnext

/-- Every readable datum is read. -/
theorem scans_of_readable {d : Datum} (hd : d.Readable depth) : Scans d := by
  induction hd using Datum.Readable.induction with
  | leaf hd => exact scans_of_leaf hd
  | list _ ih => exact scans_list ih
  | record h ih => exact scans_record fun m hm => ⟨(h m hm).1, ih m hm⟩

/-! ### Whole texts -/

theorem next_start {cs : List Char} (h : Solid cs) : Next 0 true cs ⟨[], []⟩ (start cs) :=
  next_of_solid (s := start cs) h rfl nofun

/-- At the end of a text the blocks are closed and the tokens are there. -/
theorem run_of_next {b : Blocks} {s : Scan} (h : Next 0 true [] b s) (fuel : Nat) :
    run (fuel + 1) s = some (b.close (-1)).tokens.reverse := by
  obtain ⟨s', hprepare, hat, -⟩ := h
  rw [run_succ, hprepare]
  simp only [hat.rest]
  obtain ⟨c, indents, candidate?, outer, keyAllowed, anchors, tokens⟩ := s'
  obtain ⟨-, -, -, rfl, rfl, rfl⟩ := hat
  rfl

/-- What the text of a record with members leads to is what the text is read as. -/
theorem run_of_leads {cs : List Char} {b : Blocks}
    (h : Leads (Next 0 true cs ⟨[], []⟩) (Next 0 true [] b)) (hsolid : Solid cs) :
    run (cs.length + 1) (start cs) = some (b.close (-1)).tokens.reverse := by
  obtain ⟨s, ⟨k, hk, hrun⟩, hnext⟩ := h _ (next_start hsolid)
  have hk' : k ≤ cs.length := by
    have hk : k + s.cursor.rest.length ≤ cs.length := hk
    omega
  rw [show cs.length + 1 = k + (cs.length - k + 1) by omega, hrun, run_of_next hnext]

/-- The states of the scanner lead through the text of a record with members to its end. -/
theorem run_lines {name : String} {d : Datum} {ms : List (String × Datum)}
    (h : (Datum.record ((name, d) :: ms)).Readable (depth + 1)) :
    run ((lines 0 (.record ((name, d) :: ms))).length + 1)
        (start (lines 0 (.record ((name, d) :: ms)))) =
      some (tokensOf false (.record ((name, d) :: ms))) := by
  have hscans : ∀ e ∈ (name, d) :: ms, isMemberName e.1.toList = true ∧ Scans e.2 :=
    fun e he => ⟨(h e he).1, scans_of_readable (h e he).2⟩
  obtain ⟨hname, hd⟩ := hscans (name, d) List.mem_cons_self
  have hsolid : Solid (lines 0 (.record ((name, d) :: ms)) ++ []) := solid_lines_record hname 0 []
  have hinside : ((Blocks.enter .blockMappingStart 0 ⟨[], []⟩).push
      (memberTokens ((name, d) :: ms))).Inside 0 := rfl
  have hleads := leads_members (n := 0) (m := 0) (b := ⟨[], []⟩) (Nat.le_refl 0)
    (show Solid [] from rfl) (by decide) hname hd fun e he => hscans e (List.mem_cons_of_mem _ he)
  rw [Blocks.close_of_le (Int.le_of_eq hinside.indent)] at hleads
  have htext : memberText 0 name d ++ (memberLines 0 ms ++ (blanks 0 ++ [])) =
      lines 0 (.record ((name, d) :: ms)) := by
    simp [lines, blanks]
  rw [htext] at hleads
  rw [List.append_nil] at hsolid
  -- The end of the text closes the block of the record.
  rw [run_of_leads hleads hsolid, Blocks.close_enter _ (by decide) (by decide)]
  simp [Blocks.close, closeBlocks, Blocks.push, tokensOf, memberTokens]

end

end Scan

/-- The text of a readable record with members is read as its tokens. -/
theorem scan?_lines {depth : Nat} {m : String × Datum} {ms : List (String × Datum)}
    (h : (Datum.record (m :: ms)).Readable depth) :
    Token.scan? (lines 0 (.record (m :: ms))) = some (tokensOf false (.record (m :: ms))) := by
  cases depth with
  | zero => exact h.elim
  | succ depth =>
    have hallowed : (lines 0 (.record (m :: ms))).all isAllowed = true := by
      rw [List.all_eq_true]
      intro c hc
      exact isAllowed_of_isPrintable (isPrintable_of_mem_lines h 0 hc)
    unfold Token.scan?
    rw [if_pos hallowed]
    exact Scan.run_lines h

end Provisioning.Yaml
