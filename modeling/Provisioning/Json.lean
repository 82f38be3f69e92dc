import Provisioning.Data

/-! # JSON values

    What a JSON text says, kept as it is written: the members of an object are in the order of
    the text, and a name may occur more than once. A string with half of a surrogate pair and a
    number beyond every floating point number are well formed but denote nothing; they are kept
    as such, since a reader that skips them never notices.
-/

namespace Provisioning

/-- What a JSON number denotes. -/
inductive Json.Number
  | integer (i : Int)
  | float (x : Float)

/-- A JSON value. -/
inductive Json
  | null
  | boolean (b : Bool)
  | number (n : Json.Number)
  | string (s : String)
  | array (items : List Json)
  | object (members : List (Option String × Json))
  /-- A string or number that denotes nothing. -/
  | meaningless
  deriving Inhabited

namespace Json

/-! ### Data as JSON -/

mutual

/-- The JSON value of a datum. -/
def ofDatum : Datum → Json
  | .null => .null
  | .boolean b => .boolean b
  | .integer i => .number (.integer i)
  | .text s => .string s
  | .list items => .array (ofItems items)
  | .record members => .object (ofMembers members)

/-- The JSON values of the items of a list. -/
def ofItems : List Datum → List Json
  | [] => []
  | d :: ds => ofDatum d :: ofItems ds

/-- The members of a record as members of an object. -/
def ofMembers : List (String × Datum) → List (Option String × Json)
  | [] => []
  | (name, d) :: rest => (some name, ofDatum d) :: ofMembers rest

end

/-! ### Values without blemish -/

mutual

/-- Whether every part of the value denotes something and nothing is nested deeper than `depth`
arrays and objects. -/
def denotes : (depth : Nat) → Json → Bool
  | _, .null | _, .boolean _ | _, .number _ | _, .string _ => true
  | _, .meaningless => false
  | 0, .array _ | 0, .object _ => false
  | depth + 1, .array items => itemsDenote depth items
  | depth + 1, .object members => membersDenote depth members

/-- Whether all items denote something. -/
def itemsDenote : (depth : Nat) → List Json → Bool
  | _, [] => true
  | depth, j :: rest => denotes depth j && itemsDenote depth rest

/-- Whether all names and values of members denote something. -/
def membersDenote : (depth : Nat) → List (Option String × Json) → Bool
  | _, [] => true
  | depth, (name, j) :: rest => name.isSome && denotes depth j && membersDenote depth rest

end

/-- How deeply a value may be nested to be read as a whole. -/
def depthLimit : Nat := 127

/-- Whether the value can be read as a whole, without knowing what it is to be. -/
def isSound (j : Json) : Bool :=
  denotes depthLimit j

/-! ### Objects by name -/

/-- Inserts a member by name, in the place of an earlier one of that name. -/
def insertMember (name : String) (value : Json) :
    List (Option String × Json) → List (Option String × Json)
  | [] => [(some name, value)]
  | (other, v) :: rest =>
    match other with
    | none => (other, v) :: insertMember name value rest
    | some o =>
      if name = o then (some name, value) :: rest
      else if name < o then (some name, value) :: (other, v) :: rest
      else (other, v) :: insertMember name value rest

mutual

/-- The value with the members of every object in the order of their names; of members with one
name the last stays. -/
def sorted : Json → Json
  | .array items => .array (sortedItems items)
  | .object members => .object (sortedMembers members [])
  | j => j

/-- Sorts within each item. -/
def sortedItems : List Json → List Json
  | [] => []
  | j :: rest => sorted j :: sortedItems rest

/-- Adds members to a sorted list of members. -/
def sortedMembers :
    List (Option String × Json) → List (Option String × Json) → List (Option String × Json)
  | [], done => done
  | (some name, j) :: rest, done => sortedMembers rest (insertMember name (sorted j) done)
  | (none, _) :: rest, done => sortedMembers rest done

end

/-- The value of a member. -/
def member? (name : String) : Json → Option Json
  | .object members => members.lookup (some name)
  | _ => none

end Json

end Provisioning
