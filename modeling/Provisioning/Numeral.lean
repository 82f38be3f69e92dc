/-! # Numerals

    Reading and writing whole numbers as text. A numeral is an optional sign followed by one or
    more digits of a radix; it is read against a range, and the reader says why a text is refused.

    Digits are read from the left. The first position at which the text goes wrong decides the
    error: a character that is no digit, or a digit with which the number leaves the range.
-/

namespace Provisioning

/-- Why a text is not a numeral of the wanted range. -/
inductive NumeralError
  | empty
  | invalidDigit
  | tooLarge
  | tooSmall
  deriving DecidableEq, Repr

/-- The wording of a refusal. -/
def NumeralError.message : NumeralError → String
  | .empty => "cannot parse integer from empty string"
  | .invalidDigit => "invalid digit found in string"
  | .tooLarge => "number too large to fit in target type"
  | .tooSmall => "number too small to fit in target type"

namespace Numeral

/-! ### Digits -/

/-- The value of a hexadecimal digit of either case. -/
def hexDigit? (c : Char) : Option Nat :=
  if '0' ≤ c ∧ c ≤ '9' then some (c.toNat - '0'.toNat)
  else if 'a' ≤ c ∧ c ≤ 'f' then some (c.toNat - 'a'.toNat + 10)
  else if 'A' ≤ c ∧ c ≤ 'F' then some (c.toNat - 'A'.toNat + 10)
  else none

/-- The value of a character as a digit of `radix`, for radices up to sixteen. -/
def digit? (radix : Nat) (c : Char) : Option Nat :=
  (hexDigit? c).filter (· < radix)

/-- The lower case hexadecimal digit of a value below sixteen. -/
def hexDigit (n : Nat) : Char :=
  if n < 10 then Char.ofNat ('0'.toNat + n) else Char.ofNat ('a'.toNat + (n - 10))

/-- The decimal digits of a number. -/
def decimal (n : Nat) : List Char :=
  Nat.toDigits 10 n

/-- The decimal digits of an integer, behind a minus sign if it is negative. -/
def signedDecimal : Int → List Char
  | .ofNat n => decimal n
  | .negSucc n => '-' :: decimal (n + 1)

/-- The lower case hexadecimal digits of a number, without leading zeros. -/
def hexadecimal (n : Nat) : List Char :=
  Nat.toDigits 16 n

/-- The two hexadecimal digits of a byte. -/
def hexPair (b : UInt8) : List Char :=
  [hexDigit (b.toNat / 16), hexDigit (b.toNat % 16)]

/-! ### Words -/

/-- The number of values that a word of `bits` has. -/
def wordValues (bits : Nat) : Nat :=
  Nat.pow 2 bits

/-! ### Reading -/

/-- Continues the number `value` with the digits of a text, up to `limit`. -/
def readDigits (radix limit : Nat) : List Char → Nat → Except NumeralError Nat
  | [], value => .ok value
  | c :: rest, value =>
    match digit? radix c with
    | none => .error .invalidDigit
    | some d =>
      if limit < value * radix + d then .error .tooLarge
      else readDigits radix limit rest (value * radix + d)

/-- Reads digits of which there must be one at least. -/
def readMagnitude (radix limit : Nat) : List Char → Except NumeralError Nat
  | [] => .error .invalidDigit
  | cs => readDigits radix limit cs 0

/-- Reads a number from zero to `limit`; a plus sign may stand in front. -/
def readNat (radix limit : Nat) : List Char → Except NumeralError Nat
  | [] => .error .empty
  | '+' :: cs => readMagnitude radix limit cs
  | cs => readDigits radix limit cs 0

/-- Reads an integer from `-bound` to `bound - 1`; either sign may stand in front. -/
def readInt (radix bound : Nat) : List Char → Except NumeralError Int
  | [] => .error .empty
  | '+' :: cs => (readMagnitude radix (bound - 1) cs).map Int.ofNat
  | '-' :: cs =>
    match readMagnitude radix bound cs with
    | .ok n => .ok (-(Int.ofNat n))
    | .error .tooLarge => .error .tooSmall
    | .error e => .error e
  | cs => (readDigits radix (bound - 1) cs 0).map Int.ofNat

/-- Reads a signed 32-bit number in decimal. -/
def readInt32 (cs : List Char) : Except NumeralError Int32 :=
  (readInt 10 (wordValues 31) cs).map Int32.ofInt

end Numeral

end Provisioning
