import Provisioning.Numeral
import Provisioning.Yaml.Cursor

/-! # Scalars in YAML text

    Readers for the five ways of writing a scalar. Each starts behind the indicator, if there is
    one, and yields the text and the place where the scalar ends, or nothing if it is malformed.

    Inside plain and quoted scalars the blanks and line breaks between two words form a gap. A
    gap within a line stands for itself. In a gap that spans lines the blanks do not count, a
    single line feed is folded into a blank, and of several the first is dropped.
-/

namespace Provisioning.Yaml

/-! ### Gaps -/

/-- The space between two words: the blanks before the first line break, and the breaks. -/
structure Gap where
  blanks : List Char
  breaks : List Char

namespace Gap

/-- Whether the gap spans lines. -/
def spansLines (g : Gap) : Bool := !g.breaks.isEmpty

/-- What the gap stands for in the text of the scalar. -/
def folded (g : Gap) : List Char :=
  match g.breaks with
  | [] => g.blanks
  | b :: more =>
    if b = '\n' then (if more.isEmpty then [' '] else more)
    else b :: more

end Gap

/-- Line breaks with blanks at the start of the lines behind them. A tab may not stand in front
of the column `least`. -/
def readBreaks (least : Int) : (fuel : Nat) → Cursor → Option (List Char × Cursor)
  | 0, c => some ([], c)
  | fuel + 1, c =>
    match c.takeBreak? with
    | none => some ([], c)
    | some (b, c) =>
      let c' := c.skipWhile (· == ' ')
      if c'.rest.head? = some '\t' ∧ (c'.column : Int) < least then none
      else (readBreaks least fuel (c'.skipWhile isBlank)).map fun r => (b :: r.1, r.2)

/-- A gap, with the condition on tabs of `readBreaks`. -/
def readGap (least : Int) (c : Cursor) : Option (Gap × Cursor) :=
  let blanks := c.rest.takeWhile isBlank
  let c := c.skip blanks.length
  (readBreaks least (c.rest.length + 1) c).map fun r => (⟨blanks, r.1⟩, r.2)

/-! ### Plain scalars -/

/-- Whether a character is an indicator inside flow collections. -/
def isFlowIndicator (c : Char) : Bool :=
  c == ',' || c == '[' || c == ']' || c == '{' || c == '}'

/-- The characters up to the next gap or indicator; inside a flow collection a colon may not be
followed by an indicator. -/
def plainWord (flow : Bool) : List Char → Option (List Char)
  | [] => some []
  | c :: rest =>
    if isBlank c || isBreak c then some []
    else if c == ':' && flow && (match rest with
        | d :: _ => isFlowIndicator d || d == '?'
        | [] => false) then none
    else if (c == ':' && atGap rest) || (flow && isFlowIndicator c) then some []
    else (plainWord flow rest).map (c :: ·)

/-- What reading a plain scalar yields: its text, whether a line break follows its last word, and
the place behind the gap after it. -/
structure PlainRun where
  text : List Char
  endsLine : Bool
  cursor : Cursor

/-- Reads the words of a plain scalar and the gaps between them; `gap` is the gap read last.
Outside of flow collections all lines but the first must reach the column `least`. -/
def readPlain (flow : Bool) (least : Int) :
    (fuel : Nat) → (gap : Gap) → Cursor → Option PlainRun
  | 0, _, _ => none
  | fuel + 1, gap, c =>
    if c.column = 0 ∧ atDocumentMarker c.rest then some ⟨[], gap.spansLines, c⟩
    else if c.rest.head? = some '#' then some ⟨[], gap.spansLines, c⟩
    else
      match plainWord flow c.rest with
      | none => none
      | some word =>
        let c' := c.skip word.length
        let (pending, gap) := if word.isEmpty then ([], gap) else (gap.folded ++ word, ⟨[], []⟩)
        if c'.rest.isEmpty || !atGap c'.rest then some ⟨pending, gap.spansLines, c'⟩
        else
          match readGap least c' with
          | none => none
          | some (gap, c'') =>
            if !flow && (c''.column : Int) < least then some ⟨pending, gap.spansLines, c''⟩
            else
              (readPlain flow least fuel gap c'').map fun run =>
                { run with text := pending ++ run.text }

/-! ### Quoted scalars -/

/-- The characters that a backslash and one letter stand for. -/
def shortEscape? (c : Char) : Option Nat :=
  match c with
  | '0' => some 0x00
  | 'a' => some 0x07
  | 'b' => some 0x08
  | 't' => some 0x09
  | '\t' => some 0x09
  | 'n' => some 0x0a
  | 'v' => some 0x0b
  | 'f' => some 0x0c
  | 'r' => some 0x0d
  | 'e' => some 0x1b
  | ' ' => some 0x20
  | '"' => some 0x22
  | '/' => some 0x2f
  | '\\' => some 0x5c
  | 'N' => some 0x85
  | '_' => some 0xa0
  | 'L' => some 0x2028
  | 'P' => some 0x2029
  | _ => none

/-- The number of hexadecimal digits behind an escape that names a code point. -/
def escapeLength? (c : Char) : Option Nat :=
  match c with
  | 'x' => some 2
  | 'u' => some 4
  | 'U' => some 8
  | _ => none

/-- The number that hexadecimal digits stand for. -/
def hexValue? : List Char → (value : Nat) → Option Nat
  | [], value => some value
  | c :: rest, value => (Numeral.hexDigit? c).bind fun d => hexValue? rest (value * 16 + d)

/-- The character of an escape and the number of characters behind the backslash. -/
def readEscape (cs : List Char) : Option (Char × Nat) :=
  match cs with
  | [] => none
  | c :: rest =>
    match shortEscape? c with
    | some n => some (Char.ofNat n, 1)
    | none =>
      match escapeLength? c with
      | none => none
      | some length =>
        if rest.length < length then none
        else
          match hexValue? (rest.take length) 0 with
          | none => none
          | some n => if n.isValidChar then some (Char.ofNat n, length + 1) else none

/-- A scalar in single quotes, from behind the opening one; a quote inside is written twice. -/
def readSingleQuoted : (fuel : Nat) → Cursor → Option (List Char × Cursor)
  | 0, _ => none
  | fuel + 1, c =>
    if c.column = 0 ∧ atDocumentMarker c.rest then none
    else
      match c.rest with
      | [] => none
      | '\'' :: '\'' :: _ =>
        (readSingleQuoted fuel (c.skip 2)).map fun r => ('\'' :: r.1, r.2)
      | '\'' :: _ => some ([], c.skip 1)
      | d :: _ =>
        if isBlank d || isBreak d then
          match readGap 0 c with
          | none => none
          | some (gap, c) => (readSingleQuoted fuel c).map fun r => (gap.folded ++ r.1, r.2)
        else (readSingleQuoted fuel (c.skip 1)).map fun r => (d :: r.1, r.2)

/-- A scalar in double quotes, from behind the opening one. Behind an escaped line break the
blanks are dropped and further line breaks are kept. -/
def readDoubleQuoted : (fuel : Nat) → Cursor → Option (List Char × Cursor)
  | 0, _ => none
  | fuel + 1, c =>
    if c.column = 0 ∧ atDocumentMarker c.rest then none
    else
      match c.rest with
      | [] => none
      | '"' :: _ => some ([], c.skip 1)
      | '\\' :: rest =>
        match (c.skip 1).takeBreak? with
        | some (_, c) =>
          match readGap 0 c with
          | none => none
          | some (gap, c) => (readDoubleQuoted fuel c).map fun r => (gap.breaks ++ r.1, r.2)
        | none =>
          match readEscape rest with
          | none => none
          | some (d, n) => (readDoubleQuoted fuel (c.skip (n + 1))).map fun r => (d :: r.1, r.2)
      | d :: _ =>
        if isBlank d || isBreak d then
          match readGap 0 c with
          | none => none
          | some (gap, c) => (readDoubleQuoted fuel c).map fun r => (gap.folded ++ r.1, r.2)
        else (readDoubleQuoted fuel (c.skip 1)).map fun r => (d :: r.1, r.2)

/-! ### Block scalars -/

/-- What becomes of the line breaks at the end of a block scalar. -/
inductive Chomping
  | strip
  | clip
  | keep
  deriving DecidableEq, Repr

/-- The header of a block scalar: chomping, and the indentation if it is given. -/
structure BlockHeader where
  chomping : Chomping
  increment : Option Nat

/-- The chomping that a character stands for. -/
def chomping? : Char → Option Chomping
  | '+' => some .keep
  | '-' => some .strip
  | _ => none

/-- The value of a decimal digit. -/
def decimalDigit? (c : Char) : Option Nat :=
  Numeral.digit? 10 c

/-- Reads a header: the two parts in either order, both optional; the indentation is not zero. -/
def readBlockHeader (c : Cursor) : Option (BlockHeader × Cursor) :=
  let digit (ch : Chomping) (c : Cursor) : Option (BlockHeader × Cursor) :=
    match c.rest.head?.bind decimalDigit? with
    | some 0 => none
    | some d => some (⟨ch, some d⟩, c.skip 1)
    | none => some (⟨ch, none⟩, c)
  match c.rest.head?.bind chomping? with
  | some ch => digit ch (c.skip 1)
  | none =>
    match digit .clip c with
    | some (⟨_, some d⟩, c) =>
      match c.rest.head?.bind chomping? with
      | some ch => some (⟨ch, some d⟩, c.skip 1)
      | none => some (⟨.clip, some d⟩, c)
    | other => other

/-- What `readBlockBreaks` yields: the line breaks, the indentation of the deepest line among
them, and the place at the first line with content. -/
structure BlockBreaks where
  breaks : List Char
  deepest : Nat
  cursor : Cursor

/-- Reads lines without content, skipping blanks up to the column `indent?` or all of them if no
column is given. A tab may not stand where such a blank could. -/
def readBlockBreaks (indent? : Option Nat) : (fuel : Nat) → Cursor → Option BlockBreaks
  | 0, _ => none
  | fuel + 1, c =>
    let blanks := (c.rest.takeWhile (· == ' ')).length
    let c := match indent? with
      | none => c.skip blanks
      | some n => c.skip (min blanks (n - c.column))
    let wantsBlank := match indent? with
      | none => true
      | some n => decide (c.column < n)
    if wantsBlank && c.rest.head? == some '\t' then none
    else
      match c.takeBreak? with
      | none => some ⟨[], c.column, c⟩
      | some (b, next) =>
        (readBlockBreaks indent? fuel next).map fun r =>
          ⟨b :: r.breaks, max c.column r.deepest, r.cursor⟩

/-- The indentation of a block scalar: given by the header relative to the collection around it
(`outer`, which is negative outside of all), or else that of the deepest leading line. -/
def blockIndent (outer : Int) (increment : Option Nat) : Option Nat :=
  increment.map fun n => if 0 ≤ outer then outer.toNat + n else n

/-- Whether a line starts with a blank. -/
def startsBlank : List Char → Bool
  | c :: _ => isBlank c
  | [] => false

/-- Joins a line to the text before it: `first` is the break that ended the last line, if there
was one, and `breaks` those of empty lines since. Folding turns a line feed between two lines
that do not start with a blank into a blank, and drops it before an empty line. -/
def joinLine (folds : Bool) (first : Option Char) (breaks : List Char) : List Char :=
  if folds && first == some '\n' then (if breaks.isEmpty then [' '] else breaks)
  else first.toList ++ breaks

/-- Reads the lines of a block scalar that reach the column `indent`. `first` and `breaks` are as
in `joinLine`, and `blankBefore` says whether the last line started with a blank. -/
def readBlockLines (literal : Bool) (chomping : Chomping) (indent : Nat) :
    (fuel : Nat) → (first : Option Char) → (breaks : List Char) → (blankBefore : Bool) →
    Cursor → Option (List Char × Cursor)
  | 0, _, _, _, _ => none
  | fuel + 1, first, breaks, blankBefore, c =>
    if c.column = indent ∧ c.rest ≠ [] then
      let blank := startsBlank c.rest
      let joint := joinLine (!literal && !blankBefore && !blank) first breaks
      let line := c.rest.takeWhile fun d => !isBreak d
      let c := c.skip line.length
      let (first, c) := match c.takeBreak? with
        | some (b, c) => (some b, c)
        | none => (none, c)
      match readBlockBreaks (some indent) (c.rest.length + 1) c with
      | none => none
      | some r =>
        (readBlockLines literal chomping indent fuel first r.breaks blank r.cursor).map fun t =>
          (joint ++ line ++ t.1, t.2)
    else
      match chomping with
      | .strip => some ([], c)
      | .clip => some (first.toList, c)
      | .keep => some (first.toList ++ breaks, c)

/-- A block scalar from behind its indicator, inside a collection indented to `outer`. -/
def readBlock (literal : Bool) (outer : Int) (c : Cursor) : Option (List Char × Cursor) := do
  let (header, c) ← readBlockHeader c
  let c ← c.finishLine?
  let given := blockIndent outer header.increment
  let lead ← readBlockBreaks given (c.rest.length + 1) c
  let indent := given.getD (max (max lead.deepest (outer + 1).toNat) 1)
  readBlockLines literal header.chomping indent (lead.cursor.rest.length + 1) none lead.breaks
    false lead.cursor

end Provisioning.Yaml
