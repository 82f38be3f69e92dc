/-! # Positions in a YAML text

    A cursor is a place in a text: what is left of it, and the index, line and column reached.
    Lines end at a line feed, a carriage return or both, at a next line character, and at the two
    separators of Unicode; in content the first four count as a line feed.
-/

namespace Provisioning.Yaml

/-! ### Characters -/

/-- Whether a text may hold the character at all. -/
def isAllowed (c : Char) : Bool :=
  let n := c.toNat
  n == 0x09 || n == 0x0a || n == 0x0d || (0x20 ≤ n && n ≤ 0x7e) || n == 0x85 ||
    (0xa0 ≤ n && n ≤ 0xd7ff) || (0xe000 ≤ n && n ≤ 0xfffd) || 0x10000 ≤ n

/-- A blank or a tab. -/
def isBlank (c : Char) : Bool :=
  c == ' ' || c == '\t'

/-- The separators of Unicode, which stay as they are in content. -/
def isSeparator (c : Char) : Bool :=
  c.toNat == 0x2028 || c.toNat == 0x2029

/-- A character that ends a line. -/
def isBreak (c : Char) : Bool :=
  c == '\n' || c == '\r' || c.toNat == 0x85 || isSeparator c

/-- A byte order mark. -/
def isByteOrderMark (c : Char) : Bool :=
  c.toNat == 0xfeff

/-- A character of names: of anchors, handles and directives. -/
def isNameChar (c : Char) : Bool :=
  c.isAlphanum || c == '_' || c == '-'

/-- Whether a text ends here or goes on with a blank or a line break. -/
def atGap : List Char → Bool
  | [] => true
  | c :: _ => isBlank c || isBreak c

/-- Whether a text starts with the marker of a document start or end. -/
def atDocumentMarker : List Char → Bool
  | '-' :: '-' :: '-' :: rest => atGap rest
  | '.' :: '.' :: '.' :: rest => atGap rest
  | _ => false

/-! ### Cursors -/

/-- A place in a text. -/
structure Cursor where
  rest : List Char
  index : Nat
  line : Nat
  column : Nat

namespace Cursor

/-- The start of a text. -/
def start (cs : List Char) : Cursor := ⟨cs, 0, 0, 0⟩

/-- The place `n` characters further on the same line. -/
def skip (n : Nat) (c : Cursor) : Cursor :=
  ⟨c.rest.drop n, c.index + n, c.line, c.column + n⟩

/-- The place behind the characters that satisfy `p`, none of which may end a line. -/
def skipWhile (p : Char → Bool) (c : Cursor) : Cursor :=
  c.skip (c.rest.takeWhile p).length

/-- The line break here, as it counts in content, and the place behind it. -/
def takeBreak? (c : Cursor) : Option (Char × Cursor) :=
  match c.rest with
  | '\r' :: '\n' :: rest => some ('\n', ⟨rest, c.index + 2, c.line + 1, 0⟩)
  | d :: rest =>
    if isBreak d then
      some (if isSeparator d then d else '\n', ⟨rest, c.index + 1, c.line + 1, 0⟩)
    else none
  | [] => none

/-- The place at the end of a comment, if there is one here. -/
def skipComment (c : Cursor) : Cursor :=
  match c.rest with
  | '#' :: _ => c.skipWhile fun d => !isBreak d
  | _ => c

/-- The place behind blanks, a comment and the line break, if nothing else is on the line. -/
def finishLine? (c : Cursor) : Option Cursor :=
  let c := (c.skipWhile isBlank).skipComment
  match c.rest with
  | [] => some c
  | _ => c.takeBreak?.map Prod.snd

end Cursor

end Provisioning.Yaml
