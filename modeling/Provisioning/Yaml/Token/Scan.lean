import Provisioning.Yaml.Token.Scalar
import Provisioning.Yaml.Token.Tag

/-! # From YAML text to tokens

    The tokens of a text in order. Two of them are found only later than where they belong. The
    start of a block collection follows from the column of its first part, and what starts a key
    that is not marked as one is known when the colon behind it is met. So every token that may
    start such a key is kept as a candidate, one for each open flow collection and one for the
    text around them, until it is used, replaced, or out of reach: a key is on one line and has
    at most 1024 characters.
-/

namespace Provisioning.Yaml

/-! ### States -/

/-- A token that may start a key: its number and its place. -/
structure KeyCandidate where
  number : Nat
  index : Nat
  line : Nat
  column : Nat
  /-- Whether nothing but a key can stand there. -/
  required : Bool

/-- The state in the middle of a text. -/
structure Scan where
  cursor : Cursor
  /-- The columns of the block collections that are open, innermost first. -/
  indents : List Nat
  /-- The candidate for a key. -/
  candidate? : Option KeyCandidate
  /-- The candidates outside of each flow collection that is open, innermost first. -/
  outerCandidates : List (Option KeyCandidate)
  /-- Whether a key may start here. -/
  keyAllowed : Bool
  /-- The names of anchors with their numbers, the latest first. -/
  anchors : List (String × Nat)
  /-- The tokens so far, the latest first. -/
  tokens : List Token

namespace Scan

/-- The state at the start of a text. -/
def start (cs : List Char) : Scan where
  cursor := .start cs
  indents := []
  candidate? := none
  outerCandidates := []
  keyAllowed := true
  anchors := []
  tokens := []

/-- Whether a flow collection is open. -/
def inFlow (s : Scan) : Bool :=
  !s.outerCandidates.isEmpty

/-- The column of the innermost block collection, or -1 outside of all. -/
def indent (s : Scan) : Int :=
  match s.indents with
  | [] => -1
  | n :: _ => n

/-- The state behind a token that was read up to `c`. -/
def push (t : Token) (c : Cursor) (s : Scan) : Scan :=
  { s with cursor := c, tokens := t :: s.tokens }

/-- The state behind a token of `n` characters. -/
def pushMark (t : Token) (n : Nat) (s : Scan) : Scan :=
  s.push t (s.cursor.skip n)

/-- Inserts tokens, in the order of the text, in front of the one with the given number. -/
def insertAt (number : Nat) (new : List Token) (s : Scan) : Scan :=
  let later := s.tokens.length - number
  { s with tokens := s.tokens.take later ++ new.reverse ++ s.tokens.drop later }

/-! ### Indentation -/

/-- Closes the block collections that are indented deeper than `column`. -/
def closeBlocks (column : Int) : List Nat → List Token → List Nat × List Token
  | [], tokens => ([], tokens)
  | n :: outer, tokens =>
    if column < n then closeBlocks column outer (.blockEnd :: tokens) else (n :: outer, tokens)

/-- Closes the block collections that end at a column; flow collections do not care. -/
def unindent (column : Int) (s : Scan) : Scan :=
  if s.inFlow then s
  else
    let closed := closeBlocks column s.indents s.tokens
    { s with indents := closed.1, tokens := closed.2 }

/-- Opens a block collection at a column, unless one is open there, and pushes `first`. -/
def openBlock (block : Token) (column number : Nat) (first : List Token) (s : Scan) : Scan :=
  if !s.inFlow && s.indent < column then
    { s.insertAt number (block :: first) with indents := column :: s.indents }
  else s.insertAt number first

/-- Opens a block collection here, where only the start of one may do so. -/
def openBlockHere (block : Token) (s : Scan) : Option Scan :=
  if s.inFlow then some s
  else if s.keyAllowed then some (s.openBlock block s.cursor.column s.tokens.length [])
  else none

/-! ### Candidates for keys -/

/-- Whether a candidate is out of reach from a place. -/
def KeyCandidate.isStale (k : KeyCandidate) (c : Cursor) : Bool :=
  k.line < c.line || k.index + 1024 < c.index

/-- A candidate that is still in reach; one that had to be a key may not get out of it. -/
def refresh (c : Cursor) : Option KeyCandidate → Option (Option KeyCandidate)
  | none => some none
  | some k =>
    if KeyCandidate.isStale k c then (if k.required then none else some none) else some (some k)

/-- Forgets the candidates that are out of reach. -/
def dropStale (s : Scan) : Option Scan := do
  let candidate? ← refresh s.cursor s.candidate?
  let outer ← s.outerCandidates.mapM (refresh s.cursor)
  return { s with candidate?, outerCandidates := outer }

/-- Forgets the candidate, which must not have had to be a key. -/
def dropCandidate (s : Scan) : Option Scan :=
  if s.candidate?.any KeyCandidate.required then none else some { s with candidate? := none }

/-- Makes the next token the candidate, if a key may start here. -/
def saveCandidate (s : Scan) : Option Scan :=
  if s.keyAllowed then do
    let s ← s.dropCandidate
    let c := s.cursor
    let required := !s.inFlow && s.indent == (c.column : Int)
    return { s with candidate? := some ⟨s.tokens.length, c.index, c.line, c.column, required⟩ }
  else some s

/-! ### Between tokens -/

/-- Skips blanks, comments and line breaks. Behind a line break outside of flow collections a key
may start; where it may, tabs do not count as blanks. -/
def skipGap (flow : Bool) : (fuel : Nat) → (keyAllowed : Bool) → Cursor → Bool × Cursor
  | 0, keyAllowed, c => (keyAllowed, c)
  | fuel + 1, keyAllowed, c =>
    let c := if c.column = 0 ∧ c.rest.head?.any isByteOrderMark then c.skip 1 else c
    let c := c.skipWhile fun d => d == ' ' || ((flow || !keyAllowed) && d == '\t')
    match c.skipComment.takeBreak? with
    | some (_, c) => skipGap flow fuel (keyAllowed || !flow) c
    | none => (keyAllowed, c.skipComment)

/-- Skips to the next token. -/
def toNextToken (s : Scan) : Scan :=
  let r := skipGap s.inFlow (s.cursor.rest.length + 1) s.keyAllowed s.cursor
  { s with keyAllowed := r.1, cursor := r.2 }

/-! ### Tokens -/

/-- Closes all block collections for a token that belongs to no document. -/
def leaveDocument (s : Scan) : Option Scan := do
  let s ← (s.unindent (-1)).dropCandidate
  return { s with keyAllowed := false }

/-- The start of a flow collection. -/
def openFlow (t : Token) (s : Scan) : Option Scan := do
  let s ← s.saveCandidate
  return { s.pushMark t 1 with
    candidate? := none
    outerCandidates := s.candidate? :: s.outerCandidates
    keyAllowed := true }

/-- The end of a flow collection. -/
def closeFlow (t : Token) (s : Scan) : Option Scan := do
  let s ← s.dropCandidate
  let s := { s.pushMark t 1 with keyAllowed := false }
  match s.outerCandidates with
  | [] => return s
  | k :: outer => return { s with candidate? := k, outerCandidates := outer }

/-- The comma of a flow collection. -/
def flowEntry (s : Scan) : Option Scan := do
  let s ← s.dropCandidate
  return { s.pushMark .flowEntry 1 with keyAllowed := true }

/-- The dash of a block sequence. -/
def blockEntry (s : Scan) : Option Scan := do
  let s ← s.openBlockHere .blockSequenceStart
  let s ← s.dropCandidate
  return { s.pushMark .blockEntry 1 with keyAllowed := true }

/-- The mark of a key. -/
def markedKey (s : Scan) : Option Scan := do
  let s ← s.openBlockHere .blockMappingStart
  let s ← s.dropCandidate
  return { s.pushMark .key 1 with keyAllowed := !s.inFlow }

/-- The colon behind a key. -/
def value (s : Scan) : Option Scan :=
  match s.candidate? with
  | some k =>
    let s := s.openBlock .blockMappingStart k.column k.number [.key]
    some { s.pushMark .value 1 with candidate? := none, keyAllowed := false }
  | none => do
    let s ← s.openBlockHere .blockMappingStart
    return { s.pushMark .value 1 with keyAllowed := !s.inFlow }

/-- The name behind the mark of an anchor or alias. -/
def readName (c : Cursor) : Option (String × Cursor) :=
  let name := c.rest.takeWhile isNameChar
  let c := c.skip name.length
  if !name.isEmpty && (atGap c.rest || c.rest.head?.any ("?:,]\x7d%@`".toList.contains ·)) then
    some (String.ofList name, c)
  else none

/-- The number of the next anchor. -/
def nextNumber (s : Scan) : Nat :=
  (s.anchors.map Prod.fst).eraseDups.length

/-- A node that is not a collection of block style, with the candidate for a key before it. -/
def node (read : Scan → Option Scan) (s : Scan) : Option Scan := do
  let s ← s.saveCandidate
  read { s with keyAllowed := false }

/-- An anchor. -/
def anchor (s : Scan) : Option Scan := do
  let (name, c) ← readName (s.cursor.skip 1)
  return { s.push (.anchor s.nextNumber) c with anchors := (name, s.nextNumber) :: s.anchors }

/-- An alias, whose anchor must come before it. -/
def aliasOf (s : Scan) : Option Scan := do
  let (name, c) ← readName (s.cursor.skip 1)
  let number ← s.anchors.lookup name
  return s.push (.aliasOf number) c

/-- A tag. -/
def tag (s : Scan) : Option Scan := do
  let (t, c) ← readTag s.inFlow s.cursor
  return s.push t c

/-- A scalar in quotes. -/
def quoted (style : ScalarStyle) (read : (fuel : Nat) → Cursor → Option (List Char × Cursor))
    (s : Scan) : Option Scan := do
  let c := s.cursor.skip 1
  let (text, c) ← read (c.rest.length + 1) c
  return s.push (.scalar (String.ofList text) style) c

/-- A plain scalar. -/
def plain (s : Scan) : Option Scan := do
  let run ← readPlain s.inFlow (s.indent + 1) (s.cursor.rest.length + 1) ⟨[], []⟩ s.cursor
  return { s.push (.scalar (String.ofList run.text) .plain) run.cursor with
    keyAllowed := s.keyAllowed || run.endsLine }

/-- A block scalar. -/
def block (style : ScalarStyle) (s : Scan) : Option Scan := do
  let s ← s.dropCandidate
  let (text, c) ← readBlock (style = .literal) s.indent (s.cursor.skip 1)
  return { s.push (.scalar (String.ofList text) style) c with keyAllowed := true }

/-- A directive. -/
def directive (s : Scan) : Option Scan := do
  let s ← s.leaveDocument
  let (t, c) ← readDirective s.cursor
  return s.push t c

/-- The marker of a document start or end. -/
def documentMarker (t : Token) (s : Scan) : Option Scan := do
  let s ← s.leaveDocument
  return s.pushMark t 3

/-- Whether a plain scalar starts with the character, whatever follows it. -/
def startsPlain (c : Char) : Bool :=
  !isBlank c && !isBreak c && !"-?:,[]\x7b\x7d#&*!|>'\"%@`".toList.contains c

/-- The token here, of which `c` is the first character and `rest` what follows it. -/
def token (c : Char) (rest : List Char) (s : Scan) : Option Scan :=
  let flow := s.inFlow
  let gap := atGap rest
  if s.cursor.column = 0 ∧ c = '%' then s.directive
  else if s.cursor.column = 0 ∧ atDocumentMarker (c :: rest) then
    s.documentMarker (if c = '-' then .documentStart else .documentEnd)
  else if c = '[' then s.openFlow .flowSequenceStart
  else if c = '\x7b' then s.openFlow .flowMappingStart
  else if c = ']' then s.closeFlow .flowSequenceEnd
  else if c = '\x7d' then s.closeFlow .flowMappingEnd
  else if c = ',' then s.flowEntry
  else if c = '-' ∧ gap then s.blockEntry
  else if c = '?' ∧ (flow ∨ gap) then s.markedKey
  else if c = ':' ∧ (flow ∨ gap) then s.value
  else if c = '*' then s.node aliasOf
  else if c = '&' then s.node anchor
  else if c = '!' then s.node tag
  else if c = '|' ∧ !flow then s.block .literal
  else if c = '>' ∧ !flow then s.block .folded
  else if c = '\'' then s.node (quoted .singleQuoted readSingleQuoted)
  else if c = '"' then s.node (quoted .doubleQuoted readDoubleQuoted)
  else if startsPlain c || (c == '-' && !rest.head?.any isBlank) ||
      (!flow && (c == '?' || c == ':') && !gap) then s.node plain
  else none

/-! ### Whole texts -/

/-- The tokens of a text that ends here. -/
def finish (s : Scan) : Option (List Token) := do
  let s ← (s.unindent (-1)).dropCandidate
  return s.tokens.reverse

/-- Reads tokens up to the end of the text. -/
def run : (fuel : Nat) → Scan → Option (List Token)
  | 0, _ => none
  | fuel + 1, s =>
    match s.toNextToken.dropStale with
    | none => none
    | some s =>
      let s := s.unindent s.cursor.column
      match s.cursor.rest with
      | [] => s.finish
      | c :: rest =>
        match s.token c rest with
        | none => none
        | some s => run fuel s

end Scan

/-- The tokens of a text. -/
def Token.scan? (text : List Char) : Option (List Token) :=
  if text.all isAllowed then Scan.run (text.length + 1) (.start text) else none

end Provisioning.Yaml
