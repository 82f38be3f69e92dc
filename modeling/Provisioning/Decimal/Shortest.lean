import Provisioning.Numeral

/-! # Shortest decimals

    The decimal with the fewest digits that still determines a floating point number, and the
    notations in which such a decimal is written.

    A finite number is `mantissa · 2 ^ exponent`. The reals that round to it form an interval
    whose ends belong to it when the mantissa is even. Of the decimals with `n` digits only the
    two neighbours of the number can be the nearest in the interval, so the digits are found by
    trying `n = 1, 2, …, 17` in exact arithmetic; seventeen always suffice.
-/

namespace Provisioning.Decimal

/-- A positive decimal `0.d₁d₂… · 10 ^ point`, the digits being those of `digits`. -/
structure Digits where
  digits : Nat
  point : Int

/-- Which of two equally near decimals is taken. -/
inductive Tie
  | up
  | toEven

/-! ### The digits -/

/-- A positive rational number. -/
structure Ratio where
  num : Nat
  den : Nat

/-- `value · 2 ^ e` as a ratio. -/
def Ratio.scale2 (value : Nat) (e : Int) : Ratio :=
  if 0 ≤ e then ⟨value * Nat.pow 2 e.toNat, 1⟩ else ⟨value, Nat.pow 2 (-e).toNat⟩

/-- Division by a power of ten. -/
def Ratio.shift10 (r : Ratio) (e : Int) : Ratio :=
  if 0 ≤ e then ⟨r.num, r.den * Nat.pow 10 e.toNat⟩
  else ⟨r.num * Nat.pow 10 (-e).toNat, r.den⟩

/-- Whether the integer `k` lies between two ratios, ends included or not. -/
def between (inclusive : Bool) (low high : Ratio) (k : Nat) : Bool :=
  if inclusive then low.num ≤ k * low.den && k * high.den ≤ high.num
  else low.num < k * low.den && k * high.den < high.num

/-- The nearest integer to `value` within an interval, if a neighbour of `value` is in it. -/
def nearest? (tie : Tie) (inclusive : Bool) (low value high : Ratio) : Option Nat :=
  let down := value.num / value.den
  let up := down + 1
  match between inclusive low high down, between inclusive low high up with
  | false, false => none
  | true, false => some down
  | false, true => some up
  | true, true =>
    let twice := 2 * (value.num % value.den)
    if twice < value.den then some down
    else if value.den < twice then some up
    else
      match tie with
      | .up => some up
      | .toEven => some (if down % 2 = 0 then down else up)

/-- The number of decimal digits. -/
def digitCount (n : Nat) : Nat :=
  (Numeral.decimal n).length

/-- The decimal exponent of a ratio: the number of its digits before the point. -/
def pointOf (r : Ratio) : Int :=
  if r.den ≤ r.num then (digitCount (r.num / r.den) : Int)
  else
    -- below one: count the zeros behind the point
    let guess : Int := (digitCount r.num : Int) - (digitCount r.den : Int)
    let scaled := r.shift10 guess
    if scaled.den ≤ scaled.num then guess + 1 else guess

/-- Tries the grids of `n`, `n + 1`, … digits, `tries` of them. -/
def shortestFrom (tie : Tie) (inclusive : Bool) (low value high : Ratio) (point : Int) :
    (tries n : Nat) → Option Digits
  | 0, _ => none
  | tries + 1, n =>
    let e := point - n
    match nearest? tie inclusive (low.shift10 e) (value.shift10 e) (high.shift10 e) with
    | some k => if k = 0 then shortestFrom tie inclusive low value high point tries (n + 1)
      else some ⟨k, point + digitCount k - n⟩
    | none => shortestFrom tie inclusive low value high point tries (n + 1)

/-- The shortest digits of `mantissa · 2 ^ exponent`, where `narrow` says that the neighbour
below is only half as far away as the one above. -/
def shortest (tie : Tie) (mantissa : Nat) (exponent : Int) (narrow : Bool) : Digits :=
  let value := Ratio.scale2 mantissa exponent
  let low := if narrow then Ratio.scale2 (4 * mantissa - 1) (exponent - 2)
    else Ratio.scale2 (2 * mantissa - 1) (exponent - 1)
  let high := Ratio.scale2 (2 * mantissa + 1) (exponent - 1)
  let point := pointOf value
  (shortestFrom tie (mantissa % 2 == 0) low value high point 17 1).getD ⟨mantissa, point⟩

/-! ### Writing -/

/-- How a floating point number is written. -/
structure Style where
  /-- The least and the greatest exponent of the leading digit with which no exponent mark is
  written; without them none ever is. -/
  positionalRange : Option (Int × Int)
  tie : Tie

/-- Digits without the zeros at their end, which mean nothing behind the point. -/
def significant (d : Digits) : List Char :=
  let cs := (Numeral.decimal d.digits).reverse.dropWhile (· == '0')
  cs.reverse

/-- Digits written with all zeros up to the point and at least one digit behind it. -/
def positional (digits : List Char) (point : Int) : List Char :=
  if point ≤ 0 then
    '0' :: '.' :: (List.replicate (-point).toNat '0' ++ digits)
  else
    let whole := digits.take point.toNat
    let padding := List.replicate (point.toNat - digits.length) '0'
    let rest := digits.drop point.toNat
    whole ++ padding ++ '.' :: (if rest.isEmpty then ['0'] else rest)

/-- Digits written with one of them before the point and a signed exponent. -/
def scientific (digits : List Char) (point : Int) : List Char :=
  let exponent := point - 1
  let sign := if 0 ≤ exponent then '+' else '-'
  let rest := digits.drop 1
  digits.take 1 ++ (if rest.isEmpty then [] else '.' :: rest) ++
    'e' :: sign :: Numeral.decimal exponent.natAbs

/-- The text of a positive number given by its digits. -/
def Style.write (style : Style) (d : Digits) : List Char :=
  match style.positionalRange with
  | some (least, greatest) =>
    if least ≤ d.point - 1 ∧ d.point - 1 ≤ greatest then positional (significant d) d.point
    else scientific (significant d) d.point
  | none => positional (significant d) d.point

/-- The text of a floating point number. -/
def Style.text (style : Style) (x : Float) : String :=
  let bits : Nat := x.toBits.toNat
  let sign := if bits / Nat.pow 2 63 = 1 then "-" else ""
  let raw : Nat := bits / Nat.pow 2 52 % 2048
  let fraction : Nat := bits % Nat.pow 2 52
  if raw = 2047 then
    if fraction = 0 then sign ++ "inf" else "NaN"
  else if raw = 0 ∧ fraction = 0 then sign ++ "0.0"
  else
    let mantissa := if raw = 0 then fraction else fraction + Nat.pow 2 52
    let exponent : Int := if raw = 0 then -1074 else (raw : Int) - 1075
    let narrow := fraction == 0 && 1 < raw
    sign ++ String.ofList (style.write (shortest style.tie mantissa exponent narrow))

end Provisioning.Decimal
