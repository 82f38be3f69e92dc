import Provisioning.Numeral
import Provisioning.Yaml.Cursor
import Provisioning.Yaml.Token

/-! # Tags and directives in YAML text

    Readers for the tags of nodes and for the lines that set the version of a text and the
    handles of its tags. A tag is a handle, which stands for a start that is declared elsewhere,
    and a suffix. What follows the handle is an address in which a percent sign and two
    hexadecimal digits stand for a byte of a character.
-/

namespace Provisioning.Yaml

/-! ### Addresses -/

/-- A character of an address; `wide` admits those that delimit flow collections. -/
def isUriChar (wide : Bool) (c : Char) : Bool :=
  isNameChar c || ";/?:@&=+$.%!~*'()".toList.contains c || (wide && ",[]".toList.contains c)

/-- The value bits of the first byte of a character and the number of bytes behind it. -/
def leadByte? (byte : Nat) : Option (Nat × Nat) :=
  if byte < 128 then some (byte, 0)
  else if byte / 32 = 6 then some (byte % 32, 1)
  else if byte / 16 = 14 then some (byte % 16, 2)
  else if byte / 8 = 30 then some (byte % 8, 3)
  else none

/-- An address with its bytes put together to characters; `code` holds the value bits of a
character of which `pending` bytes are missing. -/
def decodeUri : List Char → (pending code : Nat) → Option (List Char)
  | [], pending, _ => if pending = 0 then some [] else none
  | '%' :: a :: b :: rest, pending, code =>
    match Numeral.hexDigit? a, Numeral.hexDigit? b with
    | some a, some b =>
      let byte := a * 16 + b
      match pending with
      | 0 =>
        match leadByte? byte with
        | none => none
        | some (bits, 0) => (decodeUri rest 0 0).map (Char.ofNat bits :: ·)
        | some (bits, more + 1) => decodeUri rest (more + 1) bits
      | 1 =>
        if byte / 64 = 2 then (decodeUri rest 0 0).map (Char.ofNat (code * 64 + byte % 64) :: ·)
        else none
      | pending + 2 =>
        if byte / 64 = 2 then decodeUri rest (pending + 1) (code * 64 + byte % 64) else none
    | _, _ => none
  | c :: rest, pending, _ =>
    if pending = 0 ∧ c ≠ '%' then (decodeUri rest 0 0).map (c :: ·) else none

/-- The address here, which may be empty, and the place behind it. -/
def readUri (wide : Bool) (c : Cursor) : Option (List Char × Cursor) :=
  let raw := c.rest.takeWhile (isUriChar wide)
  (decodeUri raw 0 0).map fun uri => (uri, c.skip raw.length)

/-! ### Tags -/

/-- The handle here, or what looks like one but lacks the final mark. -/
def readHandle (c : Cursor) : Option (List Char × Cursor) :=
  match c.rest with
  | '!' :: rest =>
    let name := rest.takeWhile isNameChar
    match rest.drop name.length with
    | '!' :: _ => some ('!' :: name ++ ['!'], c.skip (name.length + 2))
    | _ => some ('!' :: name, c.skip (name.length + 1))
  | _ => none

/-- Whether a handle has its final mark, which is not the first one. -/
def isWholeHandle (handle : List Char) : Bool :=
  2 ≤ handle.length && handle.getLast? == some '!'

/-- The parts of the tag here. -/
def readTagParts (c : Cursor) : Option (Token × Cursor) := do
  match c.rest with
  | '!' :: '<' :: _ =>
    let (uri, c) ← readUri true (c.skip 2)
    guard (!uri.isEmpty && c.rest.head? == some '>')
    return (.tag "" (String.ofList uri), c.skip 1)
  | _ =>
    let (handle, c) ← readHandle c
    let (uri, c) ← readUri false c
    if isWholeHandle handle then
      guard (!uri.isEmpty)
      return (.tag (String.ofList handle) (String.ofList uri), c)
    else
      match handle.drop 1 ++ uri with
      | [] => return (.tag "" "!", c)
      | suffix => return (.tag "!" (String.ofList suffix), c)

/-- The tag here, behind which there must be a gap, or a comma inside a flow collection. -/
def readTag (flow : Bool) (c : Cursor) : Option (Token × Cursor) := do
  let (tag, c) ← readTagParts c
  guard (atGap c.rest || (flow && c.rest.head? == some ','))
  return (tag, c)

/-! ### Directives -/

/-- The number here, of one to nine digits. -/
def readVersionNumber (c : Cursor) : Option (Nat × Cursor) :=
  let digits := c.rest.takeWhile fun d => (Numeral.digit? 10 d).isSome
  if digits.length = 0 ∨ 9 < digits.length then none
  else (Numeral.readNat 10 999999999 digits).toOption.map fun n => (n, c.skip digits.length)

/-- What follows the name of a version directive. -/
def readVersion (c : Cursor) : Option (Token × Cursor) := do
  let (major, c) ← readVersionNumber (c.skipWhile isBlank)
  guard (c.rest.head? == some '.')
  let (minor, c) ← readVersionNumber (c.skip 1)
  return (.versionDirective major minor, c)

/-- What follows the name of a tag directive. -/
def readTagDirective (c : Cursor) : Option (Token × Cursor) := do
  let (handle, c) ← readHandle (c.skipWhile isBlank)
  guard (isWholeHandle handle || handle.length == 1)
  guard (c.rest.head?.any isBlank)
  let (start, c) ← readUri true (c.skipWhile isBlank)
  guard (!start.isEmpty && atGap c.rest)
  return (.tagDirective (String.ofList handle) (String.ofList start), c)

/-- The directive here, from its percent sign to the end of the line. -/
def readDirective (c : Cursor) : Option (Token × Cursor) := do
  let c := c.skip 1
  let name := c.rest.takeWhile isNameChar
  let c := c.skip name.length
  guard (atGap c.rest)
  let (directive, c) ←
    if name = "YAML".toList then readVersion c
    else if name = "TAG".toList then readTagDirective c
    else none
  let c ← c.finishLine?
  return (directive, c)

end Provisioning.Yaml
