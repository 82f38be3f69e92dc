import Provisioning.Data
import Provisioning.Numeral

/-! # Writing JSON

    Data as JSON text, on one line without blanks or spread over lines with an indentation of
    two. In strings the quote, the backslash and the control characters are escaped, by a letter
    where JSON has one; every other character stands for itself.
-/

namespace Provisioning.Json

/-! ### Strings -/

/-- The form of a character inside a string. -/
def charText (c : Char) : List Char :=
  if c = '"' then ['\\', '"']
  else if c = '\\' then ['\\', '\\']
  else if c.toNat = 8 then ['\\', 'b']
  else if c.toNat = 12 then ['\\', 'f']
  else if c = '\n' then ['\\', 'n']
  else if c = '\r' then ['\\', 'r']
  else if c = '\t' then ['\\', 't']
  else if c.toNat < 32 then
    ['\\', 'u', '0', '0', Numeral.hexDigit (c.toNat / 16), Numeral.hexDigit (c.toNat % 16)]
  else [c]

/-- A string between its quotes. -/
def stringText (s : String) : List Char :=
  '"' :: (s.toList.flatMap charText ++ ['"'])

/-! ### Values -/

/-- Where the blanks of a text are: at the end of a line, with the number of arrays and objects
that are open there, and behind the colon of a member. -/
structure Layout where
  newLine : (depth : Nat) → List Char
  behindColon : List Char

/-- No blanks at all. -/
def Layout.oneLine : Layout :=
  ⟨fun _ => [], []⟩

/-- A line for each item, indented by two blanks for each array or object around it. -/
def Layout.indented : Layout :=
  ⟨fun depth => '\n' :: List.replicate (2 * depth) ' ', [' ']⟩

mutual

/-- The text of a datum inside `depth` arrays and objects. -/
def text (l : Layout) (depth : Nat) : Datum → List Char
  | .null => ['n', 'u', 'l', 'l']
  | .boolean true => ['t', 'r', 'u', 'e']
  | .boolean false => ['f', 'a', 'l', 's', 'e']
  | .integer i => Numeral.signedDecimal i
  | .text s => stringText s
  | .list [] => ['[', ']']
  | .list (d :: ds) =>
    '[' :: (l.newLine (depth + 1) ++ (text l (depth + 1) d ++ moreItems l depth ds))
  | .record [] => ['{', '}']
  | .record ((name, d) :: rest) =>
    '{' :: (l.newLine (depth + 1) ++ (memberText l depth name d ++ moreMembers l depth rest))

/-- The text of a member of a record inside `depth` arrays and objects. -/
def memberText (l : Layout) (depth : Nat) (name : String) (d : Datum) : List Char :=
  stringText name ++ ':' :: (l.behindColon ++ text l (depth + 1) d)

/-- The items behind the first one, and the end of the list. -/
def moreItems (l : Layout) (depth : Nat) : List Datum → List Char
  | [] => l.newLine depth ++ [']']
  | d :: ds => ',' :: (l.newLine (depth + 1) ++ (text l (depth + 1) d ++ moreItems l depth ds))

/-- The members behind the first one, and the end of the record. -/
def moreMembers (l : Layout) (depth : Nat) : List (String × Datum) → List Char
  | [] => l.newLine depth ++ ['}']
  | (name, d) :: rest =>
    ',' :: (l.newLine (depth + 1) ++ (memberText l depth name d ++ moreMembers l depth rest))

end

/-- A datum as JSON text on one line. -/
def compact (d : Datum) : String :=
  String.ofList (text .oneLine 0 d)

/-- A datum as JSON text over several lines. -/
def pretty (d : Datum) : String :=
  String.ofList (text .indented 0 d)

end Provisioning.Json
