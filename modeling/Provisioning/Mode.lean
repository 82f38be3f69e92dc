import Provisioning.Numeral

/-! # Modes

    The three settings that travel as a 32-bit code: the provisioning mode of either address
    family and the hostname setting. Each has three known codes with names; every other code is
    carried as it is, so a mode and its code determine each other.

    As text a mode is its name, or `unknown:<code>`. The text of a known code in the second form
    is read as the named mode.
-/

namespace Provisioning

/-- A code that no name is known for. -/
structure UnknownCode where
  value : Int32
  unknown : value ≠ 0 ∧ value ≠ 1 ∧ value ≠ 2
  deriving DecidableEq

/-- How IPv4 is provisioned. -/
inductive Ipv4Mode
  | disabled
  | static
  | dhcp
  | unknown (code : UnknownCode)
  deriving DecidableEq, Inhabited

/-- How IPv6 is provisioned. -/
inductive Ipv6Mode
  | disabled
  | slaac
  | linkLocal
  | unknown (code : UnknownCode)
  deriving DecidableEq, Inhabited

/-- Whether the host name is sent; `unset` follows the system wide setting. -/
inductive HostnameSetting
  | unset
  | doNotSend
  | send
  | unknown (code : UnknownCode)
  deriving DecidableEq, Inhabited

/-! ### Codes and names -/

/-- A setting with three named codes and room for all others. -/
class Mode (μ : Type) where
  /-- What the setting is called in messages. -/
  noun : String
  /-- The named modes, in the order in which messages list them. -/
  named : List (String × μ)
  /-- The code of a mode. -/
  code : μ → Int32
  /-- The mode of a code. -/
  ofCode : Int32 → μ
  /-- The name of a mode; all modes of unknown code share one. -/
  name : μ → String
  /-- The code, if it is an unknown one. -/
  unknownCode? : μ → Option UnknownCode

/-- The mode of a code, given the modes of the codes 0, 1 and 2. -/
def modeOfCode {μ : Type} (zero one two : μ) (other : UnknownCode → μ) (c : Int32) : μ :=
  if h : c ≠ 0 ∧ c ≠ 1 ∧ c ≠ 2 then other ⟨c, h⟩
  else if c = 0 then zero
  else if c = 1 then one
  else two

namespace Ipv4Mode

/-- The code of an IPv4 mode. -/
def code : Ipv4Mode → Int32
  | disabled => 0
  | static => 1
  | dhcp => 2
  | unknown c => c.value

/-- The name of an IPv4 mode. -/
def name : Ipv4Mode → String
  | disabled => "disabled"
  | static => "static"
  | dhcp => "dhcp"
  | unknown _ => "unknown"

/-- Whether IPv4 is provisioned at all; an unknown mode does not count. -/
def isEnabled : Ipv4Mode → Bool
  | static | dhcp => true
  | disabled | unknown _ => false

instance : Mode Ipv4Mode where
  noun := "IPv4 provisioning mode"
  named := [("disabled", disabled), ("static", static), ("dhcp", dhcp)]
  code := code
  ofCode := modeOfCode disabled static dhcp unknown
  name := name
  unknownCode?
    | unknown c => some c
    | _ => none

end Ipv4Mode

namespace Ipv6Mode

/-- The code of an IPv6 mode. -/
def code : Ipv6Mode → Int32
  | disabled => 0
  | slaac => 1
  | linkLocal => 2
  | unknown c => c.value

/-- The name of an IPv6 mode. -/
def name : Ipv6Mode → String
  | disabled => "disabled"
  | slaac => "slaac"
  | linkLocal => "link-local"
  | unknown _ => "unknown"

/-- Whether IPv6 is provisioned at all; an unknown mode does not count. -/
def isEnabled : Ipv6Mode → Bool
  | slaac | linkLocal => true
  | disabled | unknown _ => false

instance : Mode Ipv6Mode where
  noun := "IPv6 provisioning mode"
  named := [("disabled", disabled), ("slaac", slaac), ("link-local", linkLocal)]
  code := code
  ofCode := modeOfCode disabled slaac linkLocal unknown
  name := name
  unknownCode?
    | unknown c => some c
    | _ => none

end Ipv6Mode

namespace HostnameSetting

/-- The code of a hostname setting. -/
def code : HostnameSetting → Int32
  | unset => 0
  | send => 1
  | doNotSend => 2
  | unknown c => c.value

/-- The name of a hostname setting. -/
def name : HostnameSetting → String
  | unset => "unset"
  | doNotSend => "do-not-send"
  | send => "send"
  | unknown _ => "unknown"

instance : Mode HostnameSetting where
  noun := "hostname setting"
  named := [("unset", unset), ("do-not-send", doNotSend), ("send", send)]
  code := code
  ofCode := modeOfCode unset send doNotSend unknown
  name := name
  unknownCode?
    | unknown c => some c
    | _ => none

end HostnameSetting

/-! ### Text -/

/-- A text that names no mode of the setting `noun`, whose names are `names`. -/
structure ModeError where
  noun : String
  names : List String
  text : String
  deriving DecidableEq, Repr

/-- The wording of the error. -/
def ModeError.message (e : ModeError) : String :=
  let names := String.intercalate ", " e.names
  s!"Invalid {e.noun} {e.text}, valid values are {names}, `unknown:<code>`"

namespace Mode

variable {μ : Type} [Mode μ]

/-- The rest of a text behind `start`. -/
def dropStart? : (start : List Char) → List Char → Option (List Char)
  | [], cs => some cs
  | _ :: _, [] => none
  | a :: start, c :: cs => if a = c then dropStart? start cs else none

/-- The characters in front of a code that is written as a number. -/
def unknownStart : List Char := "unknown:".toList

/-- The text of a mode. -/
def text (m : μ) : String :=
  match unknownCode? m with
  | some c => String.ofList (unknownStart ++ Numeral.signedDecimal c.value.toInt)
  | none => name m

/-- The code written in the form `unknown:<code>`. -/
def writtenCode? (s : String) : Option Int32 :=
  match dropStart? unknownStart s.toList with
  | none => none
  | some digits => (Numeral.readInt32 digits).toOption

/-- Reads a mode. -/
def ofText (s : String) : Except ModeError μ :=
  match (named (μ := μ)).lookup s with
  | some m => .ok m
  | none =>
    match writtenCode? s with
    | some c => .ok (ofCode c)
    | none => .error ⟨noun μ, (named (μ := μ)).map Prod.fst, s⟩

end Mode

end Provisioning
