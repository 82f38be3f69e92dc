import Provisioning.Address
import Provisioning.Numeral

/-! # Address text

    Writes an address in its usual text form and reads every accepted spelling of it.

    IPv4 is dotted decimal with octets of at most three digits and no leading zero. IPv6 is eight
    groups of one to four hexadecimal digits, of which one run of zero groups may be written `::`
    and the last two may be written as an IPv4 address. In writing, the first longest run of at
    least two zero groups is compressed, and an IPv4-mapped address ends in dotted decimal.
-/

namespace Provisioning.IpAddress

/-! ### Reading -/

/-- The longest run of digits at the front, as number and count, with the rest of the text. -/
def takeDigits (radix : Nat) : List Char → Nat → Nat → Nat × Nat × List Char
  | [], value, count => (value, count, [])
  | c :: rest, value, count =>
    match Numeral.digit? radix c with
    | some d => takeDigits radix rest (value * radix + d) (count + 1)
    | none => (value, count, c :: rest)

/-- One octet of an IPv4 address. -/
def readOctet (cs : List Char) : Option (Nat × List Char) :=
  match takeDigits 10 cs 0 0 with
  | (value, count, rest) =>
    if count = 0 ∨ 3 < count ∨ (cs.head? = some '0' ∧ 1 < count) ∨ 255 < value then none
    else some (value, rest)

/-- The text behind `c`, if it starts with `c`. -/
def skipChar (c : Char) : List Char → Option (List Char)
  | [] => none
  | d :: rest => if d = c then some rest else none

/-- An IPv4 address at the front of a text. -/
def readIpv4 (cs : List Char) : Option (BitVec 32 × List Char) := do
  let (a, cs) ← readOctet cs
  let (b, cs) ← readOctet (← skipChar '.' cs)
  let (c, cs) ← readOctet (← skipChar '.' cs)
  let (d, cs) ← readOctet (← skipChar '.' cs)
  return (ofOctets a b c d, cs)

/-- One group of an IPv6 address. -/
def readGroup (cs : List Char) : Option (Nat × List Char) :=
  match takeDigits 16 cs 0 0 with
  | (value, count, rest) => if count = 0 ∨ 4 < count then none else some (value, rest)

/-- What a run of groups amounts to: the groups, whether an IPv4 address ended it, and the rest. -/
structure GroupRun where
  groups : List Nat
  endsInIpv4 : Bool
  rest : List Char

/-- Reads at most `slots` groups, with colons between them; the last two may be an IPv4 address. -/
def readGroups : (slots : Nat) → (first : Bool) → List Char → GroupRun
  | 0, _, cs => ⟨[], false, cs⟩
  | slots + 1, first, cs =>
    let behindColon := if first then some cs else skipChar ':' cs
    match (if slots = 0 then none else behindColon.bind readIpv4) with
    | some (x, rest) => ⟨[x.toNat / 65536, x.toNat % 65536], true, rest⟩
    | none =>
      match behindColon.bind readGroup with
      | some (g, rest) =>
        let run := readGroups slots false rest
        { run with groups := g :: run.groups }
      | none => ⟨[], false, cs⟩

/-- An IPv6 address at the front of a text. -/
def readIpv6 (cs : List Char) : Option (BitVec 128 × List Char) :=
  let head := readGroups 8 true cs
  if head.groups.length = 8 then some (ofGroups head.groups, head.rest)
  else if head.endsInIpv4 then none
  else do
    let tail := readGroups (7 - head.groups.length) true
      (← skipChar ':' (← skipChar ':' head.rest))
    let gap := List.replicate (8 - head.groups.length - tail.groups.length) 0
    return (ofGroups (head.groups ++ gap ++ tail.groups), tail.rest)

/-- Reads an address that takes up the whole text. -/
def ofChars? (cs : List Char) : Option IpAddress :=
  match readIpv4 cs with
  | some (x, rest) => if rest.isEmpty then some (v4 x) else none
  | none =>
    match readIpv6 cs with
    | some (x, rest) => if rest.isEmpty then some (v6 x) else none
    | none => none

/-- Reads an address. -/
def ofString? (s : String) : Option IpAddress :=
  ofChars? s.toList

/-! ### Writing -/

/-- The dotted decimal form of a number of 32 bits. -/
def ipv4Chars (x : Nat) : List Char :=
  Numeral.decimal (x / 16777216 % 256) ++ '.' :: (Numeral.decimal (x / 65536 % 256) ++
    '.' :: (Numeral.decimal (x / 256 % 256) ++ '.' :: Numeral.decimal (x % 256)))

/-- Groups in hexadecimal with colons between them. -/
def groupChars : List Nat → List Char
  | [] => []
  | [g] => Numeral.hexadecimal g
  | g :: gs => Numeral.hexadecimal g ++ ':' :: groupChars gs

/-- The number of zero groups at the front. -/
def leadingZeros (gs : List Nat) : Nat :=
  (gs.takeWhile (· == 0)).length

/-- Start and length of the first longest run of zero groups, `start` being the index of the
first group. -/
def longestZeroRun : (start : Nat) → List Nat → Nat × Nat
  | start, [] => (start, 0)
  | start, g :: gs =>
    let here := leadingZeros (g :: gs)
    let later := longestZeroRun (start + 1) gs
    if later.2 ≤ here then (start, here) else later

/-- The text of the eight groups of an IPv6 address. -/
def ipv6Chars (groups : List Nat) : List Char :=
  match longestZeroRun 0 groups with
  | (start, length) =>
    if 1 < length then
      groupChars (groups.take start) ++ ':' :: ':' :: groupChars (groups.drop (start + length))
    else groupChars groups

/-- The text of an address. -/
def toChars : IpAddress → List Char
  | v4 x => ipv4Chars x.toNat
  | v6 x =>
    if x.toNat >>> 32 = 0xffff then "::ffff:".toList ++ ipv4Chars (x.toNat % 4294967296)
    else ipv6Chars (groupsOf 8 x.toNat)

instance : ToString IpAddress := ⟨fun a => String.ofList a.toChars⟩

end Provisioning.IpAddress
