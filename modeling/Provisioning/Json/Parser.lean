import Provisioning.Json
import Provisioning.Numeral

/-! # Reading JSON

    A reader of JSON text that keeps strings and numbers which denote nothing (see
    `Json.meaningless`) and refuses everything else that the grammar of JSON does not allow.

    Numbers without fraction and exponent are integers if they fit 64 bits. All others, and `-0`,
    are floating point: at most the digits that fit 64 bits are taken, and the result is that
    number times or divided by a power of ten.
-/

namespace Provisioning.Json

/-- Whether a character may stand between the parts of a JSON text. -/
def isBlank (c : Char) : Bool :=
  c == ' ' || c == '\n' || c == '\t' || c == '\r'

/-- The text behind the blanks at its front. -/
def skipBlanks (cs : List Char) : List Char :=
  cs.dropWhile isBlank

/-! ### Strings -/

/-- The number that four hexadecimal digits stand for. -/
def hex4? (a b c d : Char) : Option Nat := do
  let a ← Numeral.hexDigit? a
  let b ← Numeral.hexDigit? b
  let c ← Numeral.hexDigit? c
  let d ← Numeral.hexDigit? d
  return ((a * 16 + b) * 16 + c) * 16 + d

/-- The character that a backslash and a letter stand for. -/
def escaped? (c : Char) : Option Nat :=
  if c = '"' ∨ c = '\\' ∨ c = '/' then some c.toNat
  else if c = 'b' then some 8
  else if c = 'f' then some 12
  else if c = 'n' then some 10
  else if c = 'r' then some 13
  else if c = 't' then some 9
  else none

/-- The code points and surrogates of a string up to its closing quote. -/
def readCodes : List Char → Option (List Nat × List Char)
  | [] => none
  | '"' :: rest => some ([], rest)
  | '\\' :: 'u' :: a :: b :: c :: d :: rest =>
    match hex4? a b c d with
    | none => none
    | some n => (readCodes rest).map fun r => (n :: r.1, r.2)
  | '\\' :: c :: rest =>
    match escaped? c with
    | none => none
    | some n => (readCodes rest).map fun r => (n :: r.1, r.2)
  | c :: rest =>
    if c = '\\' ∨ c.toNat < 32 then none
    else (readCodes rest).map fun r => (c.toNat :: r.1, r.2)

/-- The text that code points and surrogates make up; a surrogate must be one of a pair. -/
def joinCodes : List Nat → Option (List Char)
  | [] => some []
  | n :: rest =>
    if 0xd800 ≤ n ∧ n < 0xdc00 then
      match rest with
      | [] => none
      | m :: rest =>
        if 0xdc00 ≤ m ∧ m < 0xe000 then
          (joinCodes rest).map (Char.ofNat (0x10000 + (n - 0xd800) * 1024 + (m - 0xdc00)) :: ·)
        else none
    else if 0xdc00 ≤ n ∧ n < 0xe000 then none
    else (joinCodes rest).map (Char.ofNat n :: ·)

/-- The text of a string, if it denotes one, and what follows the closing quote. -/
def readString (cs : List Char) : Option (Option String × List Char) :=
  (readCodes cs).map fun r => ((joinCodes r.1).map String.ofList, r.2)

/-! ### Numbers -/

/-- The parts of a number as written. -/
structure NumberText where
  negative : Bool
  whole : List Nat
  /-- The digits behind the point, if there is one. -/
  fraction : Option (List Nat)
  /-- The sign and the digits of the exponent, if there is one. -/
  exponent : Option (Bool × List Nat)

/-- The decimal digits at the front of a text. -/
def readDigits : List Char → List Nat × List Char
  | [] => ([], [])
  | c :: rest =>
    match Numeral.digit? 10 c with
    | some d => (d :: (readDigits rest).1, (readDigits rest).2)
    | none => ([], c :: rest)

/-- The digits before the point: a single zero, or any number of digits without one in front. -/
def readWhole (cs : List Char) : Option (List Nat × List Char) :=
  match readDigits cs with
  | ([], _) => none
  | (0 :: _ :: _, _) => none
  | parts => some parts

/-- The point and the digits behind it. -/
def readFraction : List Char → Option (Option (List Nat) × List Char)
  | '.' :: cs =>
    match readDigits cs with
    | ([], _) => none
    | (digits, rest) => some (some digits, rest)
  | cs => some (none, cs)

/-- The sign of an exponent; `true` is minus. -/
def readSign : List Char → Bool × List Char
  | '+' :: cs => (false, cs)
  | '-' :: cs => (true, cs)
  | cs => (false, cs)

/-- The mark, the sign and the digits of an exponent. -/
def readExponent : List Char → Option (Option (Bool × List Nat) × List Char)
  | [] => some (none, [])
  | c :: cs =>
    if c = 'e' ∨ c = 'E' then
      match readDigits (readSign cs).2 with
      | ([], _) => none
      | (digits, rest) => some (some ((readSign cs).1, digits), rest)
    else some (none, c :: cs)

/-- A number at the front of a text. -/
def readNumberText (cs : List Char) : Option (NumberText × List Char) := do
  let (negative, cs) := match cs with
    | '-' :: cs => (true, cs)
    | cs => (false, cs)
  let (whole, cs) ← readWhole cs
  let (fraction, cs) ← readFraction cs
  let (exponent, cs) ← readExponent cs
  return (⟨negative, whole, fraction, exponent⟩, cs)

/-- Extends a number of 64 bits by digits until one does not fit, and counts those taken. -/
def extend64 : List Nat → (value : Nat) → Nat × Nat
  | [], value => (value, 0)
  | d :: ds, value =>
    if Numeral.wordValues 64 ≤ value * 10 + d then (value, 0)
    else
      let r := extend64 ds (value * 10 + d)
      (r.1, r.2 + 1)

/-- A power of ten as a floating point number. -/
def power10 (n : Nat) : Float :=
  Float.ofScientific 1 false n

/-- The largest exponent of a power of ten that a floating point number can have. -/
def maxPower10 : Nat := 308

/-- `x` times ten to the power `e`, by steps of at most `maxPower10`; nothing if it is too large.
A number that fits 64 bits is zero after two full steps down, so three steps are enough. -/
def scale10 : (steps : Nat) → (x : Float) → (e : Int) → Option Float
  | 0, x, _ => some x
  | steps + 1, x, e =>
    if e.natAbs ≤ maxPower10 then
      if 0 ≤ e then
        let y := x * power10 e.natAbs
        if y.isInf then none else some y
      else some (x / power10 e.natAbs)
    else if x == 0 then some x
    else if 0 ≤ e then none
    else scale10 steps (x / power10 maxPower10) (e + maxPower10)

/-- The exponent that digits stand for, unless it leaves 32 bits. -/
def exponentOf (digits : List Nat) : Option Nat :=
  let n := digits.foldl (fun acc d => acc * 10 + d) 0
  if n < Numeral.wordValues 31 then some n else none

/-- What a number denotes. -/
def NumberText.value (t : NumberText) : Json :=
  let (significand, used) := extend64 t.whole 0
  let dropped := t.whole.length - used
  let sign (x : Float) : Json := .number (.float (if t.negative then -x else x))
  match t.fraction, t.exponent with
  | none, none =>
    if dropped = 0 then
      if t.negative then
        if significand = 0 ∨ Numeral.wordValues 63 < significand then
          sign (UInt64.ofNat significand).toFloat
        else .number (.integer (-significand))
      else .number (.integer significand)
    else
      match scale10 3 (UInt64.ofNat significand).toFloat dropped with
      | some x => sign x
      | none => .meaningless
  | fraction, exponent =>
    let (significand, digits) := extend64 (fraction.getD []) significand
    let start : Int := dropped - digits
    let scaled (e : Int) : Json :=
      match scale10 3 (UInt64.ofNat significand).toFloat e with
      | some x => sign x
      | none => .meaningless
    match exponent with
    | none => scaled start
    | some (down, digits) =>
      match exponentOf digits with
      | some e => scaled (if down then start - e else start + e)
      | none => if significand = 0 ∨ down then sign 0 else .meaningless

/-- A number at the front of a text. -/
def readNumber (cs : List Char) : Option (Json × List Char) :=
  (readNumberText cs).map fun r => (r.1.value, r.2)

/-! ### Values -/

/-- What a string denotes. -/
def ofString? : Option String → Json
  | some s => .string s
  | none => .meaningless

mutual

/-- A value at the front of a text; `fuel` bounds the number of nested calls. -/
def readValue : (fuel : Nat) → List Char → Option (Json × List Char)
  | 0, _ => none
  | fuel + 1, cs =>
    match skipBlanks cs with
    | '"' :: rest => (readString rest).map fun r => (ofString? r.1, r.2)
    | '[' :: rest =>
      match skipBlanks rest with
      | ']' :: rest => some (.array [], rest)
      | rest => (readItems fuel rest).map fun r => (.array r.1, r.2)
    | '{' :: rest =>
      match skipBlanks rest with
      | '}' :: rest => some (.object [], rest)
      | rest => (readMembers fuel rest).map fun r => (.object r.1, r.2)
    | 'n' :: 'u' :: 'l' :: 'l' :: rest => some (.null, rest)
    | 't' :: 'r' :: 'u' :: 'e' :: rest => some (.boolean true, rest)
    | 'f' :: 'a' :: 'l' :: 's' :: 'e' :: rest => some (.boolean false, rest)
    | cs => readNumber cs

/-- One or more items of an array and its end. -/
def readItems : (fuel : Nat) → List Char → Option (List Json × List Char)
  | 0, _ => none
  | fuel + 1, cs =>
    match readValue fuel cs with
    | none => none
    | some (j, rest) =>
      match skipBlanks rest with
      | ']' :: rest => some ([j], rest)
      | ',' :: rest => (readItems fuel rest).map fun r => (j :: r.1, r.2)
      | _ => none

/-- One or more members of an object and its end. -/
def readMembers : (fuel : Nat) → List Char → Option (List (Option String × Json) × List Char)
  | 0, _ => none
  | fuel + 1, cs =>
    match skipBlanks cs with
    | '"' :: rest =>
      match readString rest with
      | none => none
      | some (name, rest) =>
        match skipBlanks rest with
        | ':' :: rest =>
          match readValue fuel rest with
          | none => none
          | some (j, rest) =>
            match skipBlanks rest with
            | '}' :: rest => some ([(name, j)], rest)
            | ',' :: rest => (readMembers fuel rest).map fun r => ((name, j) :: r.1, r.2)
            | _ => none
        | _ => none
    | _ => none

end

/-- Reads a text that holds one value and nothing else but blanks. -/
def parse? (s : String) : Option Json :=
  let cs := s.toList
  match readValue (2 * cs.length + 2) cs with
  | some (j, rest) => if (skipBlanks rest).isEmpty then some j else none
  | none => none

end Provisioning.Json
