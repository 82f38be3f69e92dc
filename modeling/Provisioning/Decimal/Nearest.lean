import Provisioning.Numeral

/-! # Nearest floating point numbers

    The floating point number nearest to a decimal, of two equally near ones that with the even
    mantissa, found in exact arithmetic. A decimal is written as digits with at most one point
    among them, and an exponent behind a mark; a minus sign may stand in front.
-/

namespace Provisioning.Decimal

/-! ### Rounding -/

/-- The integer nearest to a ratio, of two equally near ones the even one. -/
def roundToEven (num den : Nat) : Nat :=
  let down := num / den
  let twice := 2 * (num % den)
  if twice < den then down
  else if den < twice then down + 1
  else if down % 2 = 0 then down
  else down + 1

/-- The greatest `e` with `2 ^ e` not above the ratio of two positive numbers. -/
def floorLog2 (num den : Nat) : Int :=
  let e : Int := (num.log2 : Int) - (den.log2 : Int)
  let isBelow := if 0 ≤ e then num < den * Nat.pow 2 e.toNat
    else num * Nat.pow 2 (-e).toNat < den
  if isBelow then e - 1 else e

/-- The bits of the floating point number nearest to the ratio of two positive numbers: the
mantissa in units of `2 ^ q`, on top of `q` counted from its least value. -/
def nearestBits (num den : Nat) : Nat :=
  let q : Int := max (floorLog2 num den - 52) (-1074)
  let mantissa :=
    if 0 ≤ q then roundToEven num (den * Nat.pow 2 q.toNat)
    else roundToEven (num * Nat.pow 2 (-q).toNat) den
  (q + 1074).toNat * Nat.pow 2 52 + mantissa

/-- The bits of positive infinity, which no finite number reaches. -/
def infinityBits : Nat := 2047 * Nat.pow 2 52

/-- The bits of the number nearest to `digits · 10 ^ exponent`, unless it is too large. -/
def bitsOf? (digits : Nat) (exponent : Int) : Option Nat :=
  let leading := exponent + (Numeral.decimal digits).length
  if digits = 0 ∨ leading < -400 then some 0
  else if 400 < leading then none
  else
    let bits := if 0 ≤ exponent then nearestBits (digits * Nat.pow 10 exponent.toNat) 1
      else nearestBits digits (Nat.pow 10 (-exponent).toNat)
    if bits < infinityBits then some bits else none

/-! ### Reading -/

/-- Whether a character is a decimal digit. -/
def isDigit (c : Char) : Bool :=
  '0' ≤ c && c ≤ '9'

/-- The number that digits make up behind those of `value`. -/
def digitsValue (digits : List Char) (value : Nat) : Nat :=
  digits.foldl (fun acc c => acc * 10 + (c.toNat - '0'.toNat)) value

/-- The exponent at the end of a decimal, or zero if there is none. -/
def readExponent? : List Char → Option Int
  | [] => some 0
  | c :: rest =>
    let (negative, digits) := match rest with
      | '+' :: ds => (false, ds)
      | '-' :: ds => (true, ds)
      | ds => (false, ds)
    if (c = 'e' ∨ c = 'E') ∧ !digits.isEmpty ∧ digits.all isDigit then
      some (if negative then -(digitsValue digits 0 : Int) else digitsValue digits 0)
    else none

/-- The bits of the number nearest to a decimal without sign, if there is a finite one. -/
def readUnsigned? (cs : List Char) : Option Nat :=
  let whole := cs.takeWhile isDigit
  let (fraction, rest) := match cs.dropWhile isDigit with
    | '.' :: rest => (rest.takeWhile isDigit, rest.dropWhile isDigit)
    | rest => ([], rest)
  if whole.isEmpty && fraction.isEmpty then none
  else
    match readExponent? rest with
    | none => none
    | some e => bitsOf? (digitsValue fraction (digitsValue whole 0)) (e - fraction.length)

/-- The number nearest to a decimal, if there is a finite one. -/
def read? (cs : List Char) : Option Float :=
  let (sign, cs) := match cs with
    | '-' :: cs => (Nat.pow 2 63, cs)
    | cs => (0, cs)
  (readUnsigned? cs).map fun bits => Float.ofBits (UInt64.ofNat (sign + bits))

end Provisioning.Decimal
