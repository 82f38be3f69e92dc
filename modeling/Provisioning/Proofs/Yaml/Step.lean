import Provisioning.Proofs.Yaml.Literal
import Provisioning.Proofs.Yaml.Plain
import Provisioning.Proofs.Yaml.Quoted
import Provisioning.Proofs.Yaml.State

/-! # Steps of the scanner

    What the scanner makes of the parts that block style is made of: the dash of an item, the name
    of a member with its colon, a scalar in each of the four styles, and a collection without
    parts. Each part adds its tokens; the first dash or name in a column opens a block there.
-/

namespace Provisioning.Yaml.Scan

/-! ### Places in a line -/

/-- Behind a blank the scanner comes to the token there. -/
theorem At.blank {column : Nat} {keyAllowed : Bool} {body : List Char} (hbody : Solid body)
    {b : Blocks} (hb : b.indent ≤ column) {s : Scan} (h : At column keyAllowed (' ' :: body) b s) :
    Next (column + 1) keyAllowed body b s := by
  have hskip := skipGap_blanks (k := 1) false s.cursor.rest.length s.keyAllowed hbody h.rest
  have hclose : b.close ((column + 1 : Nat) : Int) = b := Blocks.close_of_le (by omega)
  have hnext := next_of_skipGap h.outer hskip (by rw [h.candidate]; rfl) (by simp [h.rest])
  rw [h.keyAllowed, h.blocks, h.column, hclose] at hnext
  exact hnext

theorem At.behind {column : Nat} {keyAllowed : Bool} {body : List Char} {b : Blocks} {s : Scan}
    (h : At column keyAllowed body b s) : Behind body b s where
  rest := h.rest
  candidate := by
    rw [h.candidate]
    nofun
  outer := h.outer
  blocks := h.blocks

/-! ### Which token it is -/

section

variable (rest : List Char) (s : Scan)

theorem token_openSequence : s.token '[' rest = s.openFlow .flowSequenceStart := by
  simp [token, atDocumentMarker]

theorem token_closeSequence : s.token ']' rest = s.closeFlow .flowSequenceEnd := by
  simp [token, atDocumentMarker]

theorem token_openMapping : s.token '\x7b' rest = s.openFlow .flowMappingStart := by
  simp [token, atDocumentMarker]

theorem token_closeMapping : s.token '\x7d' rest = s.closeFlow .flowMappingEnd := by
  simp [token, atDocumentMarker]

theorem token_dash : s.token '-' (' ' :: rest) = s.blockEntry := by
  simp [token, atDocumentMarker, atGap, isBlank]

theorem token_colon (hrest : atGap rest = true) : s.token ':' rest = s.value := by
  simp [token, atDocumentMarker, hrest]

theorem token_bar (h : s.inFlow = false) : s.token '|' rest = s.block .literal := by
  simp [token, atDocumentMarker, h]

theorem token_singleQuote :
    s.token '\'' rest = s.node (quoted .singleQuoted readSingleQuoted) := by
  simp [token, atDocumentMarker]

theorem token_doubleQuote :
    s.token '"' rest = s.node (quoted .doubleQuoted readDoubleQuoted) := by
  simp [token, atDocumentMarker]

end

/-- What starts neither like an indicator nor like a marker is plain. -/
theorem token_plain {c : Char} {rest : List Char} {s : Scan} (hflow : s.inFlow = false)
    (hblank : isBlank c = false) (hbreak : isBreak c = false)
    (hfirst : isFirstIndicator c rest = false)
    (hmarker : ¬ (s.cursor.column = 0 ∧ atDocumentMarker (c :: rest) = true)) :
    s.token c rest = s.node plain := by
  simp only [isFirstIndicator, Bool.or_eq_false_iff, Bool.and_eq_false_iff] at hfirst
  obtain ⟨hindicator, hgap⟩ := hfirst
  simp at hindicator
  by_cases hstart : c = '?' ∨ c = ':' ∨ c = '-'
  · have hrest : atGap rest = false := by
      rcases hgap with hgap | hgap
      · rcases hstart with rfl | rfl | rfl <;> exact absurd hgap (by decide)
      · exact hgap
    rcases hstart with rfl | rfl | rfl
    · simp [token, hmarker, hflow, hrest]
    · simp [token, hmarker, hflow, hrest]
    · have hdash : rest.head?.any isBlank = false := by
        cases rest with
        | nil => rfl
        | cons d rest =>
          simp only [atGap, Bool.or_eq_false_iff] at hrest
          exact hrest.1
      simp [token, hmarker, hflow, hrest, hdash]
  · simp only [not_or] at hstart
    simp [token, hmarker, hindicator, hstart, startsPlain, hblank, hbreak]

/-! ### Opening blocks -/

/-- A block is opened in front of the latest tokens. -/
theorem openBlock_eq {s : Scan} (houter : s.outerCandidates = []) {b : Blocks}
    (latest : List Token) (hindents : s.indents = b.columns)
    (htokens : s.tokens = latest ++ b.tokens) (start : Token) (column : Nat) (first : List Token) :
    s.openBlock start column b.tokens.length first = { s with
      indents := (b.enter start column).columns
      tokens := latest ++ ((b.enter start column).push first).tokens } := by
  have hindent : s.indent = b.indent := by
    rw [indent_eq]
    unfold Scan.blocks Blocks.indent
    rw [hindents]
  have hlater : s.tokens.length - b.tokens.length = latest.length := by
    rw [htokens, List.length_append]
    omega
  unfold openBlock insertAt inFlow Blocks.enter
  simp only [houter, List.isEmpty_nil, Bool.not_true, Bool.not_false, Bool.true_and, hindent,
    decide_eq_true_eq, hlater]
  rw [htokens, List.take_left, List.drop_left]
  by_cases hlt : b.indent < column
  · rw [if_pos hlt, if_pos hlt]
    simp [hindents, Blocks.push]
  · rw [if_neg hlt, if_neg hlt]
    simp [hindents, Blocks.push]

/-! ### Items -/

/-- The dash of an item opens a block in its column. -/
theorem leads_dash {n : Nat} {body : List Char} (hbody : Solid body) {b : Blocks}
    (hb : b.indent ≤ n) :
    Leads (Next n true ('-' :: ' ' :: body) b)
      (Next (n + 2) true body ((b.enter .blockSequenceStart n).push [.blockEntry])) := by
  refine Leads.step ?_
  intro s h
  have hopen := openBlock_eq h.outer (b := s.blocks) [] rfl rfl .blockSequenceStart n []
  have hindent := (Blocks.inside_enter .blockSequenceStart hb).indent
  have hentry : s.blockEntry = some { s with
      cursor := s.cursor.skip 1
      candidate? := none
      keyAllowed := true
      indents := (b.enter .blockSequenceStart n).columns
      tokens := .blockEntry :: (b.enter .blockSequenceStart n).tokens } := by
    rw [h.blocks] at hopen
    have hlength : s.tokens.length = b.tokens.length := by rw [← h.blocks]; rfl
    unfold blockEntry openBlockHere inFlow
    simp only [h.outer, List.isEmpty_nil, Bool.not_true, h.keyAllowed, h.column, hlength, hopen]
    simp [dropCandidate, h.candidate, pushMark, push]
  have hblank : ∀ s', At (n + 1) true (' ' :: body)
      ((b.enter .blockSequenceStart n).push [.blockEntry]) s' →
      Next (n + 2) true body ((b.enter .blockSequenceStart n).push [.blockEntry]) s' := by
    intro s' hat
    refine hat.blank hbody ?_
    rw [Blocks.indent_push, hindent]
    omega
  refine ⟨_, (token_dash body s).trans hentry, ?_, hblank _ ?_⟩
  · simp [h.rest]
  · exact ⟨by simp [h.rest], by simp [h.column], rfl, rfl, h.outer, rfl⟩

/-! ### Nodes -/

/-- Where a key may start, the next token is the candidate for it. -/
theorem saveCandidate_of_key {column : Nat} {body : List Char} {b : Blocks} {s : Scan}
    (h : At column true body b s) :
    s.saveCandidate = some { s with
      candidate? := some ⟨b.tokens.length, s.cursor.index, s.cursor.line, column,
        b.indent == (column : Int)⟩ } := by
  obtain ⟨c, indents, candidate?, outer, keyAllowed, anchors, tokens⟩ := s
  obtain ⟨-, rfl, rfl, rfl, rfl, rfl⟩ := h
  rfl

/-- Inside of a block a token that is indented deeper need not be a key. -/
theorem saveCandidate_of_lt {column : Nat} {keyAllowed : Bool} {body : List Char} {b : Blocks}
    {s : Scan} (h : At column keyAllowed body b s) (hb : b.indent < column) :
    ∃ candidate?, s.saveCandidate = some { s with candidate? := candidate? } ∧
      ∀ k ∈ candidate?, k.required = false ∧ k.line = s.cursor.line ∧ k.index = s.cursor.index := by
  -- Whether a key may start here depends on what stands in front of the token.
  cases keyAllowed with
  | false =>
    refine ⟨none, ?_, nofun⟩
    obtain ⟨c, indents, candidate?, outer, keyAllowed, anchors, tokens⟩ := s
    obtain ⟨-, rfl, rfl, rfl, rfl, rfl⟩ := h
    rfl
  | true =>
    refine ⟨_, saveCandidate_of_key h, ?_⟩
    rintro k ⟨⟩
    exact ⟨by simpa using Int.ne_of_lt hb, rfl, rfl⟩

theorem node_of_saveCandidate {s : Scan} {candidate? : Option KeyCandidate}
    (h : s.saveCandidate = some { s with candidate? := candidate? }) (read : Scan → Option Scan) :
    s.node read = read { s with candidate? := candidate?, keyAllowed := false } := by
  unfold node
  rw [h]
  rfl

/-- A plain scalar is pushed as it is read, whether it is a candidate or not. -/
theorem plain_eq {s : Scan} (houter : s.outerCandidates = []) {run : PlainRun}
    (hread : readPlain false (s.indent + 1) (s.cursor.rest.length + 1) ⟨[], []⟩ s.cursor =
      some run) (candidate? : Option KeyCandidate) :
    plain { s with candidate? := candidate?, keyAllowed := false } = some { s with
      cursor := run.cursor
      candidate? := candidate?
      keyAllowed := run.endsLine
      tokens := .scalar (String.ofList run.text) .plain :: s.tokens } := by
  obtain ⟨c, indents, k?, outer, keyAllowed, anchors, tokens⟩ := s
  obtain rfl : outer = [] := houter
  have hread' : readPlain false (indent ⟨c, indents, candidate?, [], false, anchors, tokens⟩ + 1)
      (c.rest.length + 1) ⟨[], []⟩ c = some run := hread
  unfold plain
  simp only [inFlow, List.isEmpty_nil, Bool.not_true, hread']
  rfl

/-! ### Members -/

/-- A state behind the name of a member in column `n`, in front of the colon. -/
structure Named (n : Nat) (name : String) (rest : List Char) (b : Blocks) (s : Scan) : Prop where
  rest : s.cursor.rest = ':' :: rest
  column : n ≤ s.cursor.column
  candidate : ∃ k, s.candidate? = some k ∧ k.number = b.tokens.length ∧ k.column = n ∧
    KeyCandidate.isStale k s.cursor = false
  outer : s.outerCandidates = []
  indents : s.indents = b.columns
  tokens : s.tokens = [.scalar name .plain] ++ b.tokens

/-- The name of a member is the candidate at the colon behind it. -/
theorem leads_name {n : Nat} {name rest : List Char} (hname : isMemberName name = true)
    (hrest : atGap rest = true) (b : Blocks) :
    Leads (Next n true (name ++ ':' :: rest) b) (Named n (String.ofList name) rest b) := by
  obtain ⟨c, cs, rfl, hletter, hparts, hlength⟩ := exists_of_isMemberName hname
  rw [List.cons_append]
  refine Leads.step ?_
  intro s h
  have hvisible := visible_of_isNamePart (hparts c List.mem_cons_self)
  have hflow : s.inFlow = false := by simp [inFlow, h.outer]
  have hmarker : ¬ (s.cursor.column = 0 ∧ atDocumentMarker (c :: (cs ++ ':' :: rest)) = true) := by
    rw [atDocumentMarker_of_isLetter hletter]
    simp
  have htoken := token_plain hflow hvisible.isBlank hvisible.isBreak
    (isFirstIndicator_of_isLetter hletter (cs ++ ':' :: rest)) hmarker
  have hread := readPlain_name (s.indent + 1) s.cursor.rest.length hname hrest h.rest
  have hbody : (s.cursor.skip (c :: cs).length).rest = ':' :: rest := by
    rw [Cursor.rest_skip, h.rest]
    show ((c :: cs) ++ ':' :: rest).drop (c :: cs).length = _
    rw [List.drop_left]
  have hstep := htoken.trans ((node_of_saveCandidate (saveCandidate_of_key h) plain).trans
    (plain_eq h.outer hread _))
  refine ⟨_, hstep, ?_, hbody, ?_, ⟨_, rfl, rfl, rfl, ?_⟩, h.outer, ?_, ?_⟩
  · rw [hbody, List.length_append]
    simp
  · rw [Cursor.column_skip, h.column]
    omega
  · -- A name within the limit does not make its candidate stale.
    have hlimit : (c :: cs).length ≤ 1024 := by
      unfold nameLimit at hlength
      rw [List.length_cons]
      omega
    simpa [KeyCandidate.isStale] using hlimit
  · rw [← h.blocks]
    rfl
  · rw [← h.blocks]
    rfl

theorem Named.blocks {n : Nat} {name : String} {rest : List Char} {b : Blocks} {s : Scan}
    (h : Named n name rest b s) : s.blocks = b.push [.scalar name .plain] := by
  unfold Scan.blocks
  rw [h.indents, h.tokens]
  rfl

/-- The colon makes a key of the name, which opens a block in its column. -/
theorem leads_colon {n : Nat} {name : String} {rest : List Char} (hrest : atGap rest = true)
    {b : Blocks} (hb : b.indent ≤ n) :
    Leads (Named n name rest b) fun s => ∃ column, n < column ∧
      At column false rest
        ((b.enter .blockMappingStart n).push [.key, .scalar name .plain, .value]) s := by
  intro s h
  obtain ⟨k, hk, hnumber, hcolumn, hreach⟩ := h.candidate
  have hsolid : Solid s.cursor.rest := by
    rw [h.rest]
    rfl
  have hskip := skipGap_solid false s.cursor.rest.length s.keyAllowed hsolid
  have hrefresh : refresh s.cursor s.candidate? = some (some k) := by
    rw [hk]
    simp [refresh, hreach]
  have hclose : s.blocks.close s.cursor.column = b.push [.scalar name .plain] := by
    have hle := h.column
    rw [h.blocks]
    refine Blocks.close_of_le ?_
    rw [Blocks.indent_push]
    omega
  have hprepare := prepare_eq h.outer hskip hrefresh
  rw [hclose] at hprepare
  -- The candidate says where in the tokens the block and the key go.
  have hopen := openBlock_eq (s := { s with
      candidate? := some k
      indents := b.columns
      tokens := [.scalar name .plain] ++ b.tokens }) h.outer [.scalar name .plain] rfl rfl
    .blockMappingStart n [.key]
  have hvalue : value { s with
      candidate? := some k
      indents := b.columns
      tokens := [.scalar name .plain] ++ b.tokens } = some { s with
      cursor := s.cursor.skip 1
      candidate? := none
      keyAllowed := false
      indents := (b.enter .blockMappingStart n).columns
      tokens := .value :: .scalar name .plain ::
        ((b.enter .blockMappingStart n).push [.key]).tokens } := by
    unfold value
    simp only [hnumber, hcolumn, hopen]
    rfl
  refine ⟨_, .step hprepare h.rest ((token_colon rest _ hrest).trans hvalue) (Nat.le_refl _) ?_,
    s.cursor.column + 1, ?_, ?_, rfl, rfl, rfl, h.outer, rfl⟩
  · simp [h.rest]
  · have hle := h.column
    omega
  · simp [h.rest]

/-- The name of a member with its colon opens a block in its column. -/
theorem leads_key {n : Nat} {name rest : List Char} (hname : isMemberName name = true)
    (hrest : atGap rest = true) {b : Blocks} (hb : b.indent ≤ n) :
    Leads (Next n true (name ++ ':' :: rest) b) fun s => ∃ column, n < column ∧
      At column false rest ((b.enter .blockMappingStart n).push
        [.key, .scalar (String.ofList name) .plain, .value]) s :=
  (leads_name hname hrest b).trans (leads_colon hrest hb)

/-! ### Scalars -/

/-- A state from which the scanner comes to one in front of the text `body`, to the right of the
column `n`. -/
def Right (n : Nat) (body : List Char) (b : Blocks) (s : Scan) : Prop :=
  ∃ column keyAllowed, n < column ∧ Next column keyAllowed body b s

/-- What one token does from every state to the right of a column, the scanner does. -/
theorem Leads.right {n : Nat} {c : Char} {rest : List Char} {b : Blocks} {Q : Scan → Prop}
    (h : ∀ column keyAllowed s, n < column → At column keyAllowed (c :: rest) b s →
      ∃ s', s.token c rest = some s' ∧ s'.cursor.rest.length ≤ rest.length ∧ Q s') :
    Leads (Right n (c :: rest) b) Q := by
  intro s hs
  obtain ⟨column, keyAllowed, hlt, hnext⟩ := hs
  exact Leads.step (fun s hat => h column keyAllowed s hlt hat) s hnext

/-- A text in quotes is read up to the end of its line. -/
theorem leads_quoted {n : Nat} {b : Blocks} (hb : b.Inside n) {quote : Char} {style : ScalarStyle}
    {read : Nat → Cursor → Option (List Char × Cursor)}
    (htoken : ∀ rest (s : Scan), s.token quote rest = s.node (quoted style read))
    (text : String) (inner tail : List Char)
    (hread : ∀ c : Cursor, c.rest = inner ++ quote :: tail → 0 < c.column →
      ∃ c', read (c.rest.length + 1) c = some (text.toList, c') ∧ c'.rest = tail ∧
        c.line ≤ c'.line) :
    Leads (Right n (quote :: (inner ++ quote :: tail)) b)
      (Behind tail (b.push [.scalar text style])) := by
  refine Leads.right ?_
  intro column keyAllowed s hlt h
  have hindent := hb.indent
  obtain ⟨c', htext, hrest, hline⟩ := hread (s.cursor.skip 1) (by simp [h.rest]) (by simp)
  obtain ⟨candidate?, hsave, hcandidate⟩ := saveCandidate_of_lt h (by omega)
  have hnode := node_of_saveCandidate hsave (quoted style read)
  have hquoted : quoted style read { s with candidate? := candidate?, keyAllowed := false } =
      some { s with
        cursor := c'
        candidate? := candidate?
        keyAllowed := false
        tokens := .scalar text style :: s.tokens } := by
    unfold quoted
    simp only [htext, Option.bind_eq_bind, Option.bind_some, String.ofList_toList]
    rfl
  refine ⟨_, (htoken _ s).trans (hnode.trans hquoted), ?_, hrest, ?_, h.outer, ?_⟩
  · rw [hrest, List.length_append, List.length_cons]
    omega
  · intro k hk
    obtain ⟨hrequired, hline', -⟩ := hcandidate k hk
    refine ⟨hrequired, ?_⟩
    rw [hline']
    exact hline
  · rw [← h.blocks]
    rfl

section

variable {n m : Nat} {body : List Char} {b : Blocks} (hm : m ≤ n) (hbody : Solid body)
  (hb : b.Inside n)

include hm hbody hb

/-- A plain text is read up to the next line. -/
theorem leads_plain {cs : List Char} (hplain : allowsPlain cs = true) (hne : cs ≠ []) :
    Leads (Right n (cs ++ '\n' :: (blanks m ++ body)) b)
      (Next m true body ((b.push [.scalar (String.ofList cs) .plain]).close m)) := by
  have hrest := plainRest_of_allowsPlain hplain hne
  obtain ⟨c, cs, rfl⟩ := List.exists_cons_of_ne_nil hne
  rw [List.cons_append]
  refine Leads.right ?_
  intro column keyAllowed s hlt h
  have hindent := hb.indent
  have hflow : s.inFlow = false := by simp [inFlow, h.outer]
  have hfirst : isFirstIndicator c (cs ++ '\n' :: (blanks m ++ body)) = false := by
    rw [isFirstIndicator_append c cs (atGap_newline _)]
    exact isFirstIndicator_of_allowsPlain hplain
  have hmarker : ¬ (s.cursor.column = 0 ∧
      atDocumentMarker (c :: (cs ++ '\n' :: (blanks m ++ body))) = true) := by
    rw [h.column]
    omega
  have htoken := token_plain hflow (by simpa using hrest.head)
    (hrest.unbroken c List.mem_cons_self) hfirst hmarker
  have hleast : s.indent + 1 = n + 1 := by rw [indent_eq, h.blocks, hindent]
  have hfuel : (c :: cs).length < s.cursor.rest.length + 1 := by
    rw [h.rest, ← List.cons_append, List.length_append]
    omega
  have hread : readPlain false (s.indent + 1) (s.cursor.rest.length + 1) ⟨[], []⟩ s.cursor = _ :=
    readPlain_text (m := m) (by omega) hbody.startsGap hrest hfuel (by rw [h.column]; omega) h.rest
  obtain ⟨candidate?, hsave, hcandidate⟩ := saveCandidate_of_lt h (by omega)
  have hstep := htoken.trans ((node_of_saveCandidate hsave plain).trans (plain_eq h.outer hread _))
  refine ⟨_, hstep, ?_, ?_⟩
  · simp only [List.length_append, List.length_cons]
    omega
  · rw [← h.blocks]
    refine next_of_solid hbody h.outer ?_
    intro k hk
    obtain ⟨hrequired, hline, -⟩ := hcandidate k hk
    refine ⟨hrequired, ?_⟩
    rw [hline]
    exact Nat.lt_succ_self _

/-- A text of printable characters is read as a literal block, up to the next line. -/
theorem leads_literal {cs : List Char} (hne : cs ≠ []) (hprint : ∀ c ∈ cs, isPrintable c = true) :
    Leads (Right n ('|' :: (indentHint cs ++ (chompHint cs ++ '\n' ::
        (literalChars (n + 2) true cs ++ (lastBreak cs ++ (blanks m ++ body)))))) b)
      (Next m true body ((b.push [.scalar (String.ofList cs) .literal]).close m)) := by
  refine Leads.right ?_
  intro column keyAllowed s hlt h
  have hflow : s.inFlow = false := by simp [inFlow, h.outer]
  have hindent : s.indent = n := by rw [indent_eq, h.blocks, hb.indent]
  obtain ⟨c', hread, hrest, hcolumn⟩ := readBlock_text hm hbody.startsGap hne hprint
    (c := s.cursor.skip 1) (by simp [h.rest])
  have hblock : s.block .literal = some { s with
      cursor := c'
      candidate? := none
      keyAllowed := true
      tokens := .scalar (String.ofList cs) .literal :: s.tokens } := by
    obtain ⟨c, indents, candidate?, outer, allowed, anchors, tokens⟩ := s
    obtain rfl : candidate? = none := h.candidate
    have hread' : readBlock true (indent ⟨c, indents, none, outer, allowed, anchors, tokens⟩)
        (c.skip 1) = some (cs, c') := by
      rw [hindent]
      exact hread
    unfold block dropCandidate
    simp only [Option.any_none, Bool.false_eq_true, if_false, Option.bind_eq_bind,
      Option.bind_some, decide_true, hread']
    rfl
  -- The block ends in front of the next line, where the scanner already is.
  refine ⟨_, (token_bar _ s hflow).trans hblock, ?_, ?_⟩
  · simp only [hrest, List.length_append, List.length_cons]
    omega
  · have hnext := next_of_solid (s := { s with
      cursor := c'
      candidate? := none
      keyAllowed := true
      tokens := .scalar (String.ofList cs) .literal :: s.tokens }) (by rw [hrest]; exact hbody)
      h.outer nofun
    rw [← h.blocks, ← hcolumn, ← hrest]
    exact hnext

end

/-! ### Collections without parts -/

/-- A state in a flow collection without parts, in front of its end. -/
structure Opened (body : List Char) (b : Blocks) (s : Scan) : Prop where
  rest : s.cursor.rest = body
  candidate : s.candidate? = none
  outer : ∃ candidate?, s.outerCandidates = [candidate?] ∧
    ∀ k ∈ candidate?, k.required = false ∧ k.line = s.cursor.line ∧
      KeyCandidate.isStale k s.cursor = false
  blocks : s.blocks = b

/-- The bracket at the start of a flow collection keeps the candidate for later. -/
theorem leads_open {n : Nat} {b : Blocks} (hb : b.Inside n) {first : Char} {start : Token}
    (hopen : ∀ rest (s : Scan), s.token first rest = s.openFlow start) (rest : List Char) :
    Leads (Right n (first :: rest) b) (Opened rest (b.push [start])) := by
  have hindent := hb.indent
  refine Leads.right ?_
  intro column keyAllowed s hlt h
  obtain ⟨candidate?, hsave, hcandidate⟩ := saveCandidate_of_lt h (by omega)
  have hstep : s.openFlow start = some { s with
      cursor := s.cursor.skip 1
      candidate? := none
      outerCandidates := [candidate?]
      keyAllowed := true
      tokens := start :: s.tokens } := by
    obtain ⟨c, indents, k?, outer, allowed, anchors, tokens⟩ := s
    obtain rfl : outer = [] := h.outer
    unfold openFlow
    rw [hsave]
    rfl
  refine ⟨_, (hopen _ s).trans hstep, by simp [h.rest], by simp [h.rest], rfl, ⟨_, rfl, ?_⟩, ?_⟩
  · intro k hk
    obtain ⟨hrequired, hline, hindex⟩ := hcandidate k hk
    refine ⟨hrequired, hline, ?_⟩
    simp only [KeyCandidate.isStale, hline, hindex, Cursor.line_skip, Cursor.index_skip]
    simp
  · rw [← h.blocks]
    rfl

/-- The bracket at the end of a flow collection brings the candidate back. -/
theorem leads_close {b : Blocks} {last : Char} {stop : Token}
    (hclose : ∀ rest (s : Scan), s.token last rest = s.closeFlow stop)
    (hlast : isLoose last = false) (tail : List Char) :
    Leads (Opened (last :: tail) b) (Behind tail (b.push [stop])) := by
  intro s h
  obtain ⟨candidate?, houter, hcandidate⟩ := h.outer
  have hsolid : Solid s.cursor.rest := by
    rw [h.rest]
    exact hlast
  have hskip := skipGap_solid true s.cursor.rest.length s.keyAllowed hsolid
  have hrefresh : refresh s.cursor candidate? = some candidate? := by
    cases candidate? with
    | none => rfl
    | some k => simp [refresh, (hcandidate k rfl).2.2]
  -- In a flow collection columns close no blocks, and the candidate outside is still in reach.
  have hprepare : s.prepare = some s := by
    obtain ⟨c, indents, k?, outer, allowed, anchors, tokens⟩ := s
    obtain rfl : k? = none := h.candidate
    obtain rfl : outer = [candidate?] := houter
    have houter' : [candidate?].mapM (refresh c) = some [candidate?] := by simp [hrefresh]
    unfold prepare toNextToken dropStale inFlow unindent
    simp only [List.isEmpty_cons, Bool.not_false, hskip, houter']
    rfl
  have hstep : s.closeFlow stop = some { s with
      cursor := s.cursor.skip 1
      candidate? := candidate?
      outerCandidates := []
      keyAllowed := false
      tokens := stop :: s.tokens } := by
    obtain ⟨c, indents, k?, outer, allowed, anchors, tokens⟩ := s
    obtain rfl : k? = none := h.candidate
    obtain rfl : outer = [candidate?] := houter
    rfl
  have htoken := (hclose tail s).trans hstep
  refine ⟨_, .step hprepare h.rest htoken (Nat.le_refl _) ?_, ?_, ?_, rfl, ?_⟩
  · simp [h.rest]
  · simp [h.rest]
  · intro k hk
    obtain ⟨hrequired, hline, -⟩ := hcandidate k hk
    exact ⟨hrequired, Nat.le_of_eq hline⟩
  · rw [← h.blocks]
    rfl

/-- The brackets of an empty list. -/
theorem leads_emptyList {n : Nat} {b : Blocks} (hb : b.Inside n) (tail : List Char) :
    Leads (Right n ('[' :: ']' :: tail) b)
      (Behind tail (b.push [.flowSequenceStart, .flowSequenceEnd])) :=
  (leads_open hb token_openSequence _).trans (leads_close token_closeSequence rfl tail)

/-- The braces of an empty record. -/
theorem leads_emptyRecord {n : Nat} {b : Blocks} (hb : b.Inside n) (tail : List Char) :
    Leads (Right n ('\x7b' :: '\x7d' :: tail) b)
      (Behind tail (b.push [.flowMappingStart, .flowMappingEnd])) :=
  (leads_open hb token_openMapping _).trans (leads_close token_closeMapping rfl tail)

end Provisioning.Yaml.Scan
