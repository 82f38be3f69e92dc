import Provisioning.Numeral

/-! # Renderings

    The text form of records for people: the title, and in braces the members with their labels,
    in order. Nothing is escaped, so free text inside a rendering stays as it is.
-/

namespace Provisioning.Rendering

/-- Texts with a comma and a blank between them. -/
def joined : List String → String
  | [] => ""
  | [s] => s
  | s :: rest => s ++ (", " ++ joined rest)

/-- A record with its labelled members. -/
def record (title : String) (members : List (String × String)) : String :=
  title ++ "\x7b" ++ joined (members.map fun m => m.1 ++ ": " ++ m.2) ++ "\x7d"

/-- A value that may be missing. -/
def option {α : Type} (render : α → String) : Option α → String
  | some x => render x
  | none => "null"

/-- A list of values. -/
def list {α : Type} (render : α → String) (xs : List α) : String :=
  "[" ++ joined (xs.map render) ++ "]"

/-- A byte string in hexadecimal. -/
def bytes (bs : List UInt8) : String :=
  String.ofList (bs.flatMap Numeral.hexPair)

/-- A truth value. -/
def boolean (b : Bool) : String :=
  if b then "true" else "false"

/-- A signed number. -/
def int32 (n : Int32) : String :=
  String.ofList (Numeral.signedDecimal n.toInt)

end Provisioning.Rendering
