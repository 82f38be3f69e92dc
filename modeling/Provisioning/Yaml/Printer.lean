import Provisioning.Data
import Provisioning.Yaml.Scalar

/-! # Writing YAML

    Data as YAML text in block style, with an indentation of two. A list is not indented against
    the name of its member, and the first part of an item stands on the line of its dash. Texts
    are written plain where they are then read back as the same text, else in quotes; texts with
    a line feed are written as literal blocks where that is possible.
-/

namespace Provisioning.Yaml

/-! ### Which styles are possible -/

/-- Whether a character may be written as it is. -/
def isPrintable (c : Char) : Bool :=
  let n := c.toNat
  n == 0x0a || (0x20 ≤ n && n ≤ 0x7e) ||
    (0xa0 ≤ n && n != 0xfeff && n != 0xfffe && n != 0xffff)

/-- Whether two neighbours satisfy `p` and `q`. -/
def hasNeighbours (p q : Char → Bool) : List Char → Bool
  | a :: b :: rest => (p a && q b) || hasNeighbours p q (b :: rest)
  | _ => false

/-- Whether a character is a blank. -/
def isSpace (c : Char) : Bool :=
  c == ' '

/-- Whether a plain text must not start with the character, given what follows it. -/
def isFirstIndicator (c : Char) (rest : List Char) : Bool :=
  "#,[]\x7b\x7d&*!|>'\"%@`".toList.contains c || ("?:-".toList.contains c && atGap rest)

/-- Whether a plain text would end before its end; `previous` is the character in front. -/
def hasLaterIndicator : (previous : Char) → List Char → Bool
  | _, [] => false
  | previous, c :: rest =>
    (c == ':' && atGap rest) || (c == '#' && (isBlank previous || isBreak previous)) ||
      hasLaterIndicator c rest

/-- Whether a text looks like the marker of a document start or end at its front. -/
def startsLikeMarker : List Char → Bool
  | '-' :: '-' :: '-' :: _ | '.' :: '.' :: '.' :: _ => true
  | _ => false

/-- Whether a text holds what has a meaning of its own outside of quotes. -/
def hasIndicator : List Char → Bool
  | [] => false
  | c :: rest =>
    startsLikeMarker (c :: rest) || isFirstIndicator c rest || hasLaterIndicator c rest

/-- Whether a text can be written without quotes. -/
def allowsPlain (cs : List Char) : Bool :=
  cs.all (fun c => isPrintable c && !isBreak c) && !hasIndicator cs &&
    !cs.head?.any isSpace && !cs.getLast?.any isSpace

/-- Whether a text can be written in single quotes. -/
def allowsSingleQuotes (cs : List Char) : Bool :=
  cs.all isPrintable && !hasNeighbours isBreak isSpace cs && !hasNeighbours isSpace isBreak cs

/-- Whether a text can be written as a block. -/
def allowsBlock (cs : List Char) : Bool :=
  cs.all isPrintable && !hasNeighbours isSpace isBreak cs && !cs.getLast?.any isSpace

/-- Whether a plain text would be read as what it is. -/
def isTextWhenPlain (s : String) : Bool :=
  match plainMeaning s with
  | .text _ => !hasIdleZero s.toList
  | _ => false

/-- The style in which a text is written. -/
def styleOf (s : String) : ScalarStyle :=
  let cs := s.toList
  if cs.contains '\n' then (if allowsBlock cs then .literal else .doubleQuoted)
  else if isTextWhenPlain s && allowsPlain cs then .plain
  else if allowsSingleQuotes cs then .singleQuoted
  else .doubleQuoted

/-! ### Scalars -/

/-- Blanks. -/
def blanks (n : Nat) : List Char :=
  List.replicate n ' '

/-- A text inside single quotes. A line behind a break, here a separator, starts in column `n`,
also if only the closing quote is on it. -/
def singleQuotedChars (n : Nat) : (behindBreak : Bool) → List Char → List Char
  | behindBreak, [] => if behindBreak then blanks n else []
  | behindBreak, c :: rest =>
    if isBreak c then c :: singleQuotedChars n true rest
    else
      (if behindBreak then blanks n else []) ++ (if c = '\'' then ['\''] else []) ++
        c :: singleQuotedChars n false rest

/-- The letter that stands for a character behind a backslash. -/
def escapeLetter? (c : Char) : Option Char :=
  match c.toNat with
  | 0x00 => some '0'
  | 0x07 => some 'a'
  | 0x08 => some 'b'
  | 0x09 => some 't'
  | 0x0a => some 'n'
  | 0x0b => some 'v'
  | 0x0c => some 'f'
  | 0x0d => some 'r'
  | 0x1b => some 'e'
  | 0x22 => some '"'
  | 0x5c => some '\\'
  | 0x85 => some 'N'
  | 0xa0 => some '_'
  | 0x2028 => some 'L'
  | 0x2029 => some 'P'
  | _ => none

/-- The last `width` upper case hexadecimal digits of a number. -/
def hexDigits : (width : Nat) → Nat → List Char
  | 0, _ => []
  | width + 1, n => hexDigits width (n / 16) ++ [(Numeral.hexDigit (n % 16)).toUpper]

/-- A character as an escape. -/
def escape (c : Char) : List Char :=
  let n := c.toNat
  match escapeLetter? c with
  | some letter => ['\\', letter]
  | none =>
    if n ≤ 0xff then '\\' :: 'x' :: hexDigits 2 n
    else if n ≤ 0xffff then '\\' :: 'u' :: hexDigits 4 n
    else '\\' :: 'U' :: hexDigits 8 n

/-- A character inside double quotes. -/
def doubleQuotedChar (c : Char) : List Char :=
  if !isPrintable c || isBreak c || c == '"' || c == '\\' then escape c else [c]

/-- The lines of a literal block, indented to the column `n`. -/
def literalChars (n : Nat) : (lineStart : Bool) → List Char → List Char
  | _, [] => []
  | lineStart, c :: rest =>
    if isBreak c then c :: literalChars n true rest
    else (if lineStart then blanks n else []) ++ c :: literalChars n false rest

/-- The indentation in the header of a block, given where the first line would mislead. -/
def indentHint (cs : List Char) : List Char :=
  if cs.head?.any fun c => isSpace c || isBreak c then ['2'] else []

/-- The chomping in the header of a block: no line break at the end of the text is a dash, more
than one or nothing else is a plus sign. -/
def chompHint (cs : List Char) : List Char :=
  match cs.reverse with
  | [] => ['-']
  | [c] => if isBreak c then ['+'] else ['-']
  | c :: d :: _ => if isBreak c then (if isBreak d then ['+'] else []) else ['-']

/-- A text with the end of its last line; lines behind the first start in column `n`. -/
def textLines (n : Nat) (s : String) : List Char :=
  let cs := s.toList
  match styleOf s with
  | .plain => cs ++ ['\n']
  | .singleQuoted => '\'' :: (singleQuotedChars n false cs ++ ['\'', '\n'])
  | .literal =>
    '|' :: (indentHint cs ++ chompHint cs ++ '\n' :: (literalChars n true cs ++
      if cs.getLast?.any isBreak then [] else ['\n']))
  | _ => '"' :: (cs.flatMap doubleQuotedChar ++ ['"', '\n'])

/-! ### Data -/

/-- What stands between the colon of a member in column `n` and its value, and the column that
the value starts in. -/
def behindColon (n : Nat) : Datum → List Char × Nat
  | .record (_ :: _) => ('\n' :: blanks (n + 2), n + 2)
  | .list (_ :: _) => ('\n' :: blanks n, n)
  | _ => ([' '], n + 2)

mutual

/-- The lines of a datum from column `n` on, where the first one starts. -/
def lines (n : Nat) : Datum → List Char
  | .null => ['n', 'u', 'l', 'l', '\n']
  | .boolean true => ['t', 'r', 'u', 'e', '\n']
  | .boolean false => ['f', 'a', 'l', 's', 'e', '\n']
  | .integer i => Numeral.signedDecimal i ++ ['\n']
  | .text s => textLines n s
  | .list [] => ['[', ']', '\n']
  | .list (d :: rest) => '-' :: ' ' :: (lines (n + 2) d ++ itemLines n rest)
  | .record [] => ['\x7b', '\x7d', '\n']
  | .record ((name, d) :: rest) => memberText n name d ++ memberLines n rest

/-- A member that starts in column `n`. -/
def memberText (n : Nat) (name : String) (d : Datum) : List Char :=
  name.toList ++ ':' :: ((behindColon n d).1 ++ lines (behindColon n d).2 d)

/-- The items behind the first one, with dashes in column `n`. -/
def itemLines (n : Nat) : List Datum → List Char
  | [] => []
  | d :: rest => blanks n ++ '-' :: ' ' :: (lines (n + 2) d ++ itemLines n rest)

/-- The members behind the first one, in column `n`. -/
def memberLines (n : Nat) : List (String × Datum) → List Char
  | [] => []
  | (name, d) :: rest => blanks n ++ (memberText n name d ++ memberLines n rest)

end

/-- A datum as YAML text. -/
def text (d : Datum) : String :=
  String.ofList (lines 0 d)

end Provisioning.Yaml
