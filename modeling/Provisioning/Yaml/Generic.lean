import Provisioning.Yaml.Scalar

/-! # YAML values without expectation

    What a YAML value is when nothing is known of what it should be. Under a tag of the text's own
    a value is the tagged value. A mapping may not have a key twice, where equal numbers of the
    two kinds are different, a number that is none equals itself, and the order of members does
    not count. Not every YAML value is one: there are no integers of more than 64 bits, and a
    scalar under a core tag must be of the type.
-/

namespace Provisioning.Yaml

/-! ### Generic values -/

/-- A value that nothing is expected of. -/
inductive Generic
  | nothing
  | boolean (b : Bool)
  | integer (i : Int)
  /-- A floating point number by its bits, of which zero and what is no number have one form. -/
  | float (bits : UInt64)
  | text (s : String)
  | list (items : List Generic)
  | record (members : List (Generic × Generic))
  | tagged (tag : String) (value : Generic)

/-- The form of a floating point number in which equal ones are the same. -/
def Generic.ofFloat (x : Float) : Generic :=
  .float (if x.isNaN then 0x7ff8000000000000 else if x == 0 then 0 else x.toBits)

/-- The generic value of a meaning. -/
def Generic.ofMeaning? : Meaning → Option Generic
  | .nothing => some .nothing
  | .boolean b => some (.boolean b)
  | .integer i => some (.integer i)
  | .wideInteger _ => none
  | .float x => some (.ofFloat x)
  | .text s => some (.text s)

mutual

/-- Whether two values are equal. -/
def Generic.same : Generic → Generic → Bool
  | .nothing, .nothing => true
  | .boolean a, .boolean b => a == b
  | .integer i, .integer j => i == j
  | .float x, .float y => x == y
  | .text s, .text t => s == t
  | .list xs, .list ys => sameItems xs ys
  | .record xs, .record ys => xs.length == ys.length && sameMembers xs ys
  | .tagged s x, .tagged t y => s == t && same x y
  | _, _ => false

/-- Whether two lists are equal, item by item. -/
def Generic.sameItems : List Generic → List Generic → Bool
  | [], [] => true
  | x :: xs, y :: ys => same x y && sameItems xs ys
  | _, _ => false

/-- Whether each of some members is among those of another record. -/
def Generic.sameMembers : List (Generic × Generic) → List (Generic × Generic) → Bool
  | [], _ => true
  | (key, value) :: rest, ys =>
    ys.any (fun y => same key y.1 && same value y.2) && sameMembers rest ys

end

/-! ### Reading them -/

/-- The tag that a value counts under, unless the tag has been taken into account before. -/
def ownTag? (done : Bool) (tag? : Option String) : Option String :=
  if done then none else tag?.filter isLocalTag

/-- The value under its tag. A mark at the front of the tag is not part of it. -/
def Generic.under (tag? : Option String) (value : Generic) : Generic :=
  match tag? with
  | none => value
  | some tag => .tagged (String.ofList (tag.toList.drop 1)) value

mutual

/-- The generic value of a YAML value. The tag of a key does not count if that of its mapping
does, or if the mapping is a key whose tag does not count. -/
def generic? (tagDone : Bool) : Yaml → Option Generic
  | .scalar tag? s style =>
    match meaning (if tagDone then none else tag?) s style with
    | .ok m => (Generic.ofMeaning? m).map (Generic.under (ownTag? tagDone tag?))
    | .error _ => none
  | .sequence tag? items =>
    (genericItems? items).map fun xs => .under (ownTag? tagDone tag?) (.list xs)
  | .mapping tag? members =>
    let own? := ownTag? tagDone tag?
    (genericMembers? (tagDone || own?.isSome) members []).map fun ms => .under own? (.record ms)

/-- The generic values of items. -/
def genericItems? : List Yaml → Option (List Generic)
  | [] => some []
  | v :: rest =>
    match generic? false v with
    | none => none
    | some x => (genericItems? rest).map (x :: ·)

/-- The generic members of a mapping behind those that are `done`. -/
def genericMembers? (tagDone : Bool) : List (Yaml × Yaml) →
    (done : List (Generic × Generic)) → Option (List (Generic × Generic))
  | [], done => some done
  | (key, value) :: rest, done =>
    match generic? tagDone key with
    | none => none
    | some k =>
      if done.any fun m => Generic.same m.1 k then none
      else
        match generic? false value with
        | none => none
        | some v => genericMembers? tagDone rest ((k, v) :: done)

end

/-- Whether a text can be read as a whole, without knowing what it is to be. -/
def isSoundText (s : String) : Bool :=
  match parse? s with
  | some v => (generic? false v).isSome
  | none => false

end Provisioning.Yaml
