import Provisioning.Yaml.Token

/-! # YAML nodes

    The tree that the tokens of a text make up, with its aliases still in place. A node may have
    an anchor and a tag. Where the text leaves a node out there is an empty plain scalar.

    A text holds one document. It may be preceded by directives, if it starts with a marker, and
    followed by end markers.
-/

namespace Provisioning.Yaml

/-! ### Trees -/

/-- What may be written in front of a node. -/
structure Properties where
  anchor? : Option Nat
  tag? : Option String
  deriving DecidableEq, Inhabited, Repr

/-- No properties. -/
def Properties.absent : Properties := ⟨none, none⟩

/-- A node of a document. -/
inductive Node
  | scalar (properties : Properties) (text : String) (style : ScalarStyle)
  | sequence (properties : Properties) (items : List Node)
  | mapping (properties : Properties) (members : List (Node × Node))
  /-- The node of the anchor with the given number. -/
  | aliasOf (number : Nat)
  deriving Inhabited, Repr

namespace Node

/-- A node that is left out. -/
def empty (p : Properties) : Node :=
  .scalar p "" .plain

/-! ### Properties -/

/-- The handles of tags and what they stand for. -/
abbrev Handles := List (String × String)

/-- The handles that need no directive. -/
def standardHandles : Handles :=
  [("!", "!"), ("!!", "tag:yaml.org,2002:")]

/-- The tag of a handle and a suffix; without a handle the suffix is all of it. -/
def tag? (handles : Handles) (handle suffix : String) : Option String :=
  if handle = "" then some suffix
  else (handles.lookup handle).map fun start => start ++ suffix

/-- Reads the properties of a node, in either order. -/
def readProperties (handles : Handles) (ts : List Token) : Option (Properties × List Token) :=
  match ts with
  | .anchor n :: .tag h s :: rest => (tag? handles h s).map fun t => (⟨some n, some t⟩, rest)
  | .anchor n :: rest => some (⟨some n, none⟩, rest)
  | .tag h s :: .anchor n :: rest => (tag? handles h s).map fun t => (⟨some n, some t⟩, rest)
  | .tag h s :: rest => (tag? handles h s).map fun t => (⟨none, some t⟩, rest)
  | rest => some (.absent, rest)

/-- The properties as they count for a scalar, whose tag may be taken back by a lone mark. -/
def ofScalar (p : Properties) : Properties :=
  { p with tag? := p.tag?.filter (· != "!") }

/-! ### Nodes -/

/-- A node, unless it is left out because one of the tokens `stops` follows. -/
def unlessBefore (stops : List Token) (read : List Token → Option (Node × List Token))
    (ts : List Token) : Option (Node × List Token) :=
  if ts.head?.any stops.contains then some (empty .absent, ts) else read ts

/-- The value behind a key, which is left out together with its colon or alone. -/
def valueUnlessBefore (stops : List Token) (read : List Token → Option (Node × List Token))
    (ts : List Token) : Option (Node × List Token) :=
  match ts with
  | .value :: rest => unlessBefore stops read rest
  | _ => some (empty .absent, ts)

mutual

/-- Reads a node. A key or value of a block mapping may be a block sequence that is not indented
and so has no start and end. -/
def read (handles : Handles) (unindented : Bool) :
    (fuel : Nat) → List Token → Option (Node × List Token)
  | 0, _ => none
  | fuel + 1, ts =>
    match ts with
    | .aliasOf number :: rest => some (.aliasOf number, rest)
    | ts => do
      let (p, ts) ← readProperties handles ts
      match ts with
      | .scalar text style :: rest => return (.scalar (ofScalar p) text style, rest)
      | .flowSequenceStart :: rest =>
        let (items, rest) ← readFlowItems handles fuel rest
        return (.sequence p items, rest)
      | .flowMappingStart :: rest =>
        let (members, rest) ← readFlowMembers handles fuel rest
        return (.mapping p members, rest)
      | .blockSequenceStart :: rest =>
        let (items, rest) ← readBlockItems handles fuel rest
        return (.sequence p items, rest)
      | .blockMappingStart :: rest =>
        let (members, rest) ← readBlockMembers handles fuel rest
        return (.mapping p members, rest)
      | .blockEntry :: rest =>
        if unindented then
          let (items, rest) ← readUnindentedItems handles fuel (.blockEntry :: rest)
          return (.sequence p items, rest)
        else if p = .absent then none
        else return (empty p, .blockEntry :: rest)
      | ts => if p = .absent then none else return (empty p, ts)

/-- Reads the items of a block sequence and its end. -/
def readBlockItems (handles : Handles) : (fuel : Nat) → List Token →
    Option (List Node × List Token)
  | 0, _ => none
  | fuel + 1, ts =>
    match ts with
    | .blockEnd :: rest => some ([], rest)
    | .blockEntry :: rest => do
      let (item, rest) ← unlessBefore [.blockEntry, .blockEnd] (read handles false fuel) rest
      let (items, rest) ← readBlockItems handles fuel rest
      return (item :: items, rest)
    | _ => none

/-- Reads the items of a block sequence that is not indented. -/
def readUnindentedItems (handles : Handles) : (fuel : Nat) → List Token →
    Option (List Node × List Token)
  | 0, _ => none
  | fuel + 1, ts =>
    match ts with
    | .blockEntry :: rest => do
      let (item, rest) ←
        unlessBefore [.blockEntry, .key, .value, .blockEnd] (read handles false fuel) rest
      let (items, rest) ← readUnindentedItems handles fuel rest
      return (item :: items, rest)
    | ts => some ([], ts)

/-- Reads the members of a block mapping and its end. -/
def readBlockMembers (handles : Handles) : (fuel : Nat) → List Token →
    Option (List (Node × Node) × List Token)
  | 0, _ => none
  | fuel + 1, ts =>
    match ts with
    | .blockEnd :: rest => some ([], rest)
    | .key :: rest => do
      let stops := [.key, .value, .blockEnd]
      let (key, rest) ← unlessBefore stops (read handles true fuel) rest
      let (value, rest) ← valueUnlessBefore stops (read handles true fuel) rest
      let (members, rest) ← readBlockMembers handles fuel rest
      return ((key, value) :: members, rest)
    | _ => none

/-- Reads the items of a flow sequence and its end. An item may be a mapping of one member
without brackets; if its key is left out, so is the token that follows the mark of the key. -/
def readFlowItems (handles : Handles) : (fuel : Nat) → List Token →
    Option (List Node × List Token)
  | 0, _ => none
  | fuel + 1, ts =>
    match ts with
    | .flowSequenceEnd :: rest => some ([], rest)
    | ts => do
      let (item, rest) ←
        match ts with
        | .key :: rest =>
          let (key, rest) ←
            if rest.head?.any [Token.value, .flowEntry, .flowSequenceEnd].contains then
              some (empty .absent, rest.drop 1)
            else read handles false fuel rest
          let (value, rest) ←
            valueUnlessBefore [.flowEntry, .flowSequenceEnd] (read handles false fuel) rest
          some (.mapping .absent [(key, value)], rest)
        | ts => read handles false fuel ts
      match rest with
      | .flowEntry :: rest =>
        let (items, rest) ← readFlowItems handles fuel rest
        return (item :: items, rest)
      | .flowSequenceEnd :: rest => return ([item], rest)
      | _ => none

/-- Reads the members of a flow mapping and its end; a node without a colon is a key. -/
def readFlowMembers (handles : Handles) : (fuel : Nat) → List Token →
    Option (List (Node × Node) × List Token)
  | 0, _ => none
  | fuel + 1, ts =>
    match ts with
    | .flowMappingEnd :: rest => some ([], rest)
    | ts => do
      let (member, rest) ←
        match ts with
        | .key :: rest =>
          let (key, rest) ←
            unlessBefore [.value, .flowEntry, .flowMappingEnd] (read handles false fuel) rest
          let (value, rest) ←
            valueUnlessBefore [.flowEntry, .flowMappingEnd] (read handles false fuel) rest
          some ((key, value), rest)
        | ts => (read handles false fuel ts).map fun r => ((r.1, empty .absent), r.2)
      match rest with
      | .flowEntry :: rest =>
        let (members, rest) ← readFlowMembers handles fuel rest
        return (member :: members, rest)
      | .flowMappingEnd :: rest => return ([member], rest)
      | _ => none

end

/-! ### Documents -/

/-- Reads the directives in front of a document. There may be one version, 1.1 or 1.2, and one
declaration of each handle. -/
def readDirectives : List Token → (versioned : Bool) → Handles →
    Option (Handles × List Token)
  | .versionDirective major minor :: rest, versioned, handles =>
    if versioned ∨ major ≠ 1 ∨ (minor ≠ 1 ∧ minor ≠ 2) then none
    else readDirectives rest true handles
  | .tagDirective handle start :: rest, versioned, handles =>
    if (handles.lookup handle).isSome then none
    else readDirectives rest versioned ((handle, start) :: handles)
  | rest, _, handles => some (handles ++ standardHandles, rest)

/-- How many nodes and collections can at most be begun in reading the tokens. -/
def readingFuel (ts : List Token) : Nat :=
  2 * ts.length + 2

/-- Reads the node of a document that starts with directives or a marker. -/
def readMarkedDocument (ts : List Token) : Option (Node × List Token) := do
  match ← readDirectives ts false [] with
  | (handles, .documentStart :: rest) =>
    match rest with
    | [] | .documentEnd :: _ => return (empty .absent, rest)
    | rest => read handles false (readingFuel rest) rest
  | _ => none

/-- Reads the node of a document. -/
def readDocument (ts : List Token) : Option (Node × List Token) :=
  match ts with
  | [] => some (empty .absent, [])
  | .versionDirective _ _ :: _ | .tagDirective _ _ :: _ | .documentStart :: _ =>
    readMarkedDocument ts
  | ts => read standardHandles false (readingFuel ts) ts

/-- The node of a text of the given tokens. -/
def ofTokens? (ts : List Token) : Option Node := do
  let (node, rest) ← readDocument ts
  if rest.all (· = .documentEnd) then some node else none

end Node

end Provisioning.Yaml
