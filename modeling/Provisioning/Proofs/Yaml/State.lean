import Provisioning.Proofs.Yaml.Cursor

/-! # States of the scanner

    Outside of flow collections the scanner comes to a token, closes the blocks that the column of
    the token ends, and reads the token. `At` describes a state in front of a token, `Next` a
    state from which the scanner comes to such a state. Which blocks a column ends is not known
    before the column is; so `Next` takes the blocks as they are after they have been closed.

    A part of a text is read in several steps, and each of them needs fuel. `Leads P Q` says that
    from a state with `P` the scanner comes to one with `Q`, with no more fuel than characters.
-/

namespace Provisioning.Yaml

/-! ### Blocks -/

/-- The columns of the blocks that are open, innermost first, and the tokens so far, the latest
first. -/
structure Blocks where
  columns : List Nat
  tokens : List Token

namespace Blocks

/-- The column of the innermost block, or -1 outside of all. -/
def indent (b : Blocks) : Int :=
  match b.columns with
  | [] => -1
  | n :: _ => n

/-- Tokens behind those so far, in the order of the text. -/
def push (ts : List Token) (b : Blocks) : Blocks :=
  { b with tokens := ts.reverse ++ b.tokens }

/-- A block in the column `n`, which is opened by the token `start` unless it is open. -/
def enter (start : Token) (n : Nat) (b : Blocks) : Blocks :=
  if b.indent < n then ⟨n :: b.columns, start :: b.tokens⟩ else b

/-- The blocks after those that the column ends are closed. -/
def close (column : Int) (b : Blocks) : Blocks :=
  ⟨(Scan.closeBlocks column b.columns b.tokens).1, (Scan.closeBlocks column b.columns b.tokens).2⟩

/-- A block in the column `n` is the innermost one. -/
def Inside (n : Nat) (b : Blocks) : Prop :=
  b.columns.head? = some n

variable {b : Blocks} {n : Nat}

@[simp] theorem push_nil (b : Blocks) : b.push [] = b := rfl

@[simp] theorem push_push (ts ts' : List Token) (b : Blocks) :
    (b.push ts).push ts' = b.push (ts ++ ts') := by
  simp [push]

@[simp] theorem indent_push (ts : List Token) (b : Blocks) : (b.push ts).indent = b.indent := rfl

theorem Inside.indent (h : b.Inside n) : b.indent = n := by
  obtain ⟨columns, tokens⟩ := b
  cases columns with
  | nil => cases h
  | cons k outer =>
    obtain rfl := Option.some.inj h
    rfl

theorem Inside.push (h : b.Inside n) (ts : List Token) : (b.push ts).Inside n := h

/-- Inside of a block nothing is opened for a further part of it. -/
theorem enter_of_inside (h : b.Inside n) (start : Token) : b.enter start n = b := by
  have hindent := h.indent
  unfold enter
  rw [if_neg (by omega)]

theorem inside_enter (start : Token) (h : b.indent ≤ n) : (b.enter start n).Inside n := by
  unfold enter
  by_cases hlt : b.indent < n
  · rw [if_pos hlt]
    rfl
  · rw [if_neg hlt]
    obtain ⟨columns, tokens⟩ := b
    cases columns with
    | nil =>
      have hneg : (-1 : Int) < n := by omega
      exact absurd hneg hlt
    | cons k outer =>
      have hk : (k : Int) ≤ n := h
      have hk' : ¬ (k : Int) < n := hlt
      have heq : k = n := by omega
      exact congrArg some heq

/-- A column that the innermost block reaches ends no block. -/
theorem close_of_le {column : Int} (h : b.indent ≤ column) : b.close column = b := by
  obtain ⟨columns, tokens⟩ := b
  cases columns with
  | nil => rfl
  | cons k outer =>
    have hk : ¬ column < (k : Int) := Int.not_lt.mpr h
    simp only [close, Scan.closeBlocks]
    rw [if_neg hk]

/-- A column in front of a block that has been opened ends it. -/
theorem close_enter (start : Token) {column : Int} (hopen : b.indent < n) (hclose : column < n)
    (ts : List Token) :
    ((b.enter start n).push ts).close column =
      (b.push (start :: (ts ++ [.blockEnd]))).close column := by
  unfold enter
  rw [if_pos hopen]
  simp only [close, push, Scan.closeBlocks]
  rw [if_pos hclose]
  simp

end Blocks

namespace Scan

/-- The blocks of a state. -/
def blocks (s : Scan) : Blocks := ⟨s.indents, s.tokens⟩

theorem indent_eq (s : Scan) : s.indent = s.blocks.indent := rfl

/-! ### Steps -/

/-- What is done in front of every token. -/
def prepare (s : Scan) : Option Scan :=
  s.toNextToken.dropStale.map fun s => s.unindent s.cursor.column

theorem run_succ (fuel : Nat) (s : Scan) :
    run (fuel + 1) s =
      match s.prepare with
      | none => none
      | some s =>
        match s.cursor.rest with
        | [] => s.finish
        | c :: rest => (s.token c rest).bind (run fuel) := by
  rw [run]
  unfold prepare
  cases s.toNextToken.dropStale with
  | none => rfl
  | some s =>
    simp only [Option.map_some]
    generalize s.unindent s.cursor.column = s
    cases s.cursor.rest with
    | nil => rfl
    | cons c rest =>
      simp only
      cases s.token c rest <;> rfl

/-- One state is reached from another, with fuel for the characters between them. -/
def Reaches (s s' : Scan) : Prop :=
  ∃ k, k + s'.cursor.rest.length ≤ s.cursor.rest.length ∧
    ∀ fuel, run (k + fuel) s = run fuel s'

theorem Reaches.trans {s s' s'' : Scan} (h : Reaches s s') (h' : Reaches s' s'') :
    Reaches s s'' := by
  obtain ⟨k, hk, hrun⟩ := h
  obtain ⟨k', hk', hrun'⟩ := h'
  refine ⟨k + k', by omega, ?_⟩
  intro fuel
  rw [Nat.add_assoc, hrun, hrun']

/-- A token is read in one step. -/
theorem Reaches.step {s s' s'' : Scan} (hprepare : s.prepare = some s') {c : Char}
    {rest : List Char} (hrest : s'.cursor.rest = c :: rest) (htoken : s'.token c rest = some s'')
    (hlength : s'.cursor.rest.length ≤ s.cursor.rest.length)
    (hlength' : s''.cursor.rest.length ≤ rest.length) : Reaches s s'' := by
  refine ⟨1, ?_, ?_⟩
  · rw [hrest, List.length_cons] at hlength
    omega
  · intro fuel
    rw [Nat.add_comm, run_succ, hprepare]
    simp only [hrest, htoken, Option.bind_some]

/-! ### Places -/

/-- A state in front of the text `body`, with the blocks `b`, outside of flow collections and
without a candidate for a key. -/
structure At (column : Nat) (keyAllowed : Bool) (body : List Char) (b : Blocks) (s : Scan) :
    Prop where
  rest : s.cursor.rest = body
  column : s.cursor.column = column
  keyAllowed : s.keyAllowed = keyAllowed
  candidate : s.candidate? = none
  outer : s.outerCandidates = []
  blocks : s.blocks = b

/-- A state from which the scanner comes to one in front of the text `body`. -/
def Next (column : Nat) (keyAllowed : Bool) (body : List Char) (b : Blocks) (s : Scan) : Prop :=
  ∃ s', s.prepare = some s' ∧ At column keyAllowed body b s' ∧
    body.length ≤ s.cursor.rest.length

/-- From every state with `P` one with `Q` is reached. -/
def Leads (P Q : Scan → Prop) : Prop :=
  ∀ s, P s → ∃ s', Reaches s s' ∧ Q s'

theorem Leads.trans {P Q R : Scan → Prop} (h : Leads P Q) (h' : Leads Q R) : Leads P R := by
  intro s hs
  obtain ⟨s', hreach, hs'⟩ := h s hs
  obtain ⟨s'', hreach', hs''⟩ := h' s' hs'
  exact ⟨s'', hreach.trans hreach', hs''⟩

/-- What one token does from every state in front of it, the scanner does. -/
theorem Leads.step {column : Nat} {keyAllowed : Bool} {c : Char} {rest : List Char} {b : Blocks}
    {Q : Scan → Prop}
    (h : ∀ s, At column keyAllowed (c :: rest) b s →
      ∃ s', s.token c rest = some s' ∧ s'.cursor.rest.length ≤ rest.length ∧ Q s') :
    Leads (Next column keyAllowed (c :: rest) b) Q := by
  intro s hs
  obtain ⟨s', hprepare, hat, hlength⟩ := hs
  obtain ⟨s'', htoken, hlength', hQ⟩ := h s' hat
  refine ⟨s'', ?_, hQ⟩
  refine .step hprepare hat.rest htoken ?_ hlength'
  rw [hat.rest]
  exact hlength

/-! ### Gaps between tokens -/

/-- Blanks in front of what is neither a blank nor a comment are skipped. -/
theorem skipGap_step (flow : Bool) (fuel : Nat) (keyAllowed : Bool) {k : Nat} {rest : List Char}
    (hblank : rest.head?.any isBlank = false) (hcomment : rest.head? ≠ some '#')
    (hmark : rest.head?.any isByteOrderMark = false) {c : Cursor} (hc : c.rest = blanks k ++ rest) :
    skipGap flow (fuel + 1) keyAllowed c =
      (Cursor.takeBreak? ⟨rest, c.index + k, c.line, c.column + k⟩).elim
        (keyAllowed, ⟨rest, c.index + k, c.line, c.column + k⟩)
        (fun r => skipGap flow fuel (keyAllowed || !flow) r.2) := by
  -- A byte order mark would be skipped, but none starts the text.
  have hstart : c.rest.head?.any isByteOrderMark = false := by
    rw [hc]
    cases k with
    | zero => exact hmark
    | succ k => rfl
  have hskip : (c.skipWhile fun d => d == ' ' || ((flow || !keyAllowed) && d == '\t')) =
      ⟨rest, c.index + k, c.line, c.column + k⟩ := by
    have hstop : (rest.head?.any fun d => d == ' ' || ((flow || !keyAllowed) && d == '\t')) =
        false := by
      cases rest with
      | nil => rfl
      | cons d rest =>
        simp only [List.head?_cons, Option.any_some, isBlank, Bool.or_eq_false_iff] at hblank ⊢
        simp [hblank]
    rw [Cursor.skipWhile_append hc (fun d hd => by simp [eq_of_mem_blanks hd]) hstop]
    simp
  have hnone : Cursor.skipComment ⟨rest, c.index + k, c.line, c.column + k⟩ =
      ⟨rest, c.index + k, c.line, c.column + k⟩ := by
    unfold Cursor.skipComment
    split
    · next heq => exact absurd (congrArg List.head? heq) hcomment
    · rfl
  rw [skipGap]
  simp only [hstart, Bool.false_eq_true, and_false, if_false, hskip, hnone]
  cases Cursor.takeBreak? ⟨rest, c.index + k, c.line, c.column + k⟩ <;> rfl

/-- Blanks in front of a token are skipped. -/
theorem skipGap_blanks (flow : Bool) (fuel : Nat) (keyAllowed : Bool) {k : Nat} {body : List Char}
    (hbody : Solid body) {c : Cursor} (hc : c.rest = blanks k ++ body) :
    skipGap flow (fuel + 1) keyAllowed c =
      (keyAllowed, ⟨body, c.index + k, c.line, c.column + k⟩) := by
  rw [skipGap_step flow fuel keyAllowed hbody.blank hbody.comment hbody.mark hc,
    Cursor.takeBreak?_eq_none hbody.break, Option.elim_none]

/-- Where a token starts, nothing is skipped. -/
theorem skipGap_solid (flow : Bool) (fuel : Nat) (keyAllowed : Bool) {c : Cursor}
    (h : Solid c.rest) : skipGap flow (fuel + 1) keyAllowed c = (keyAllowed, c) :=
  skipGap_blanks (k := 0) flow fuel keyAllowed h rfl

/-- A line break and the blanks in front of a token are skipped, and a key may follow. -/
theorem skipGap_newline (fuel : Nat) (keyAllowed : Bool) {k : Nat} {body : List Char}
    (hbody : Solid body) {c : Cursor} (hc : c.rest = '\n' :: (blanks k ++ body)) :
    skipGap false (fuel + 2) keyAllowed c =
      (true, ⟨body, c.index + 1 + k, c.line + 1, k⟩) := by
  have hkept : isKeptBreak '\n' = true := rfl
  have hbreak := Cursor.takeBreak?_of_kept (c := ⟨'\n' :: (blanks k ++ body), c.index + 0, c.line,
    c.column + 0⟩) rfl hkept
  rw [skipGap_step (k := 0) false (fuel + 1) keyAllowed rfl (by simp) rfl hc, hbreak]
  simp only [Option.elim_some, Bool.not_false, Bool.or_true]
  rw [skipGap_blanks false fuel true hbody rfl]
  simp

/-! ### In front of a token -/

/-- In front of a token the scanner knows where it is, which candidate is left and which blocks
are. -/
theorem prepare_eq {s : Scan} (houter : s.outerCandidates = []) {keyAllowed : Bool} {c : Cursor}
    (hskip : skipGap false (s.cursor.rest.length + 1) s.keyAllowed s.cursor = (keyAllowed, c))
    {candidate? : Option KeyCandidate} (hrefresh : refresh c s.candidate? = some candidate?) :
    s.prepare = some { s with
      cursor := c
      keyAllowed := keyAllowed
      candidate? := candidate?
      indents := (s.blocks.close c.column).columns
      tokens := (s.blocks.close c.column).tokens } := by
  unfold prepare toNextToken dropStale inFlow unindent
  simp only [houter, List.isEmpty_nil, Bool.not_true, hskip, hrefresh]
  rfl

/-- A candidate that need not be a key is forgotten on a later line. -/
theorem refresh_of_line {candidate? : Option KeyCandidate} {c : Cursor}
    (h : ∀ k ∈ candidate?, k.required = false ∧ k.line < c.line) :
    refresh c candidate? = some none := by
  cases candidate? with
  | none => rfl
  | some k =>
    obtain ⟨hrequired, hline⟩ := h k rfl
    simp [refresh, KeyCandidate.isStale, hrequired, hline]

/-- The scanner comes to the token behind a gap if no candidate is left there. -/
theorem next_of_skipGap {s : Scan} (houter : s.outerCandidates = []) {keyAllowed : Bool}
    {c : Cursor}
    (hskip : skipGap false (s.cursor.rest.length + 1) s.keyAllowed s.cursor = (keyAllowed, c))
    (hrefresh : refresh c s.candidate? = some none)
    (hlength : c.rest.length ≤ s.cursor.rest.length) :
    Next c.column keyAllowed c.rest (s.blocks.close c.column) s :=
  ⟨_, prepare_eq houter hskip hrefresh, ⟨rfl, rfl, rfl, rfl, houter, rfl⟩, hlength⟩

/-- A state in which the scanner has already come to the token, with no candidate on its line. -/
theorem next_of_solid {s : Scan} (hsolid : Solid s.cursor.rest) (houter : s.outerCandidates = [])
    (hcandidate : ∀ k ∈ s.candidate?, k.required = false ∧ k.line < s.cursor.line) :
    Next s.cursor.column s.keyAllowed s.cursor.rest (s.blocks.close s.cursor.column) s :=
  next_of_skipGap houter (skipGap_solid false _ s.keyAllowed hsolid) (refresh_of_line hcandidate)
    (Nat.le_refl _)

/-- A state behind a token, outside of flow collections; a candidate for a key that is left need
not be one. -/
structure Behind (body : List Char) (b : Blocks) (s : Scan) : Prop where
  rest : s.cursor.rest = body
  candidate : ∀ k ∈ s.candidate?, k.required = false ∧ k.line ≤ s.cursor.line
  outer : s.outerCandidates = []
  blocks : s.blocks = b

/-- Behind the end of the line a key may follow. -/
theorem Behind.next {m : Nat} {body : List Char} (hbody : Solid body) {b : Blocks} {s : Scan}
    (h : Behind ('\n' :: (blanks m ++ body)) b s) : Next m true body (b.close m) s := by
  obtain ⟨fuel, hfuel⟩ : ∃ fuel, s.cursor.rest.length = fuel + 1 := by
    rw [h.rest]
    exact ⟨_, rfl⟩
  have hskip := skipGap_newline fuel s.keyAllowed hbody h.rest
  -- A candidate of the line before is out of reach, and it did not have to be a key.
  have hrefresh : refresh ⟨body, s.cursor.index + 1 + m, s.cursor.line + 1, m⟩ s.candidate? =
      some none := by
    refine refresh_of_line ?_
    intro k hk
    obtain ⟨hrequired, hline⟩ := h.candidate k hk
    exact ⟨hrequired, Nat.lt_succ_of_le hline⟩
  rw [← h.blocks]
  refine next_of_skipGap h.outer ?_ hrefresh ?_
  · rw [hfuel]
    exact hskip
  · rw [h.rest]
    simp only [List.length_cons, List.length_append]
    omega

end Scan

end Provisioning.Yaml
