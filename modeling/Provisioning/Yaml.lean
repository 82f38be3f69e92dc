import Provisioning.Yaml.Node
import Provisioning.Yaml.Token.Scan

/-! # YAML values

    What a YAML text says: a tree of scalars, sequences and mappings with their tags, in which
    every alias has been replaced by the node that it stands for. A scalar is kept as written;
    what it denotes depends on what is wanted (see `Provisioning.Yaml.Scalar`).

    There is a limit to the depth of the tree and to the number of aliases that are followed in
    building it, so a text with an alias inside its own anchor has no value.
-/

namespace Provisioning

/-- A YAML value. -/
inductive Yaml
  | scalar (tag? : Option String) (text : String) (style : Yaml.ScalarStyle)
  | sequence (tag? : Option String) (items : List Yaml)
  | mapping (tag? : Option String) (members : List (Yaml × Yaml))
  deriving Inhabited, Repr

namespace Yaml

/-! ### Anchors and sizes -/

/-- A node under the number of its anchor. -/
def Properties.anchored (p : Properties) (n : Node) : List (Nat × Node) :=
  match p.anchor? with
  | some number => [(number, n)]
  | none => []

mutual

/-- The nodes with an anchor, in the order of the text. -/
def anchoredNodes : Node → List (Nat × Node)
  | .scalar p text style => p.anchored (.scalar p text style)
  | .sequence p items => p.anchored (.sequence p items) ++ anchoredItems items
  | .mapping p members => p.anchored (.mapping p members) ++ anchoredMembers members
  | .aliasOf _ => []

/-- The nodes with an anchor in a list of nodes. -/
def anchoredItems : List Node → List (Nat × Node)
  | [] => []
  | n :: rest => anchoredNodes n ++ anchoredItems rest

/-- The nodes with an anchor in a list of members. -/
def anchoredMembers : List (Node × Node) → List (Nat × Node)
  | [] => []
  | (key, value) :: rest => anchoredNodes key ++ (anchoredNodes value ++ anchoredMembers rest)

end

mutual

/-- The size of a node: one for a scalar or alias, and two for a collection besides its parts. -/
def nodeSize : Node → Nat
  | .scalar _ _ _ | .aliasOf _ => 1
  | .sequence _ items => itemsSize items + 2
  | .mapping _ members => membersSize members + 2

/-- The size of a list of nodes. -/
def itemsSize : List Node → Nat
  | [] => 0
  | n :: rest => nodeSize n + itemsSize rest

/-- The size of a list of members. -/
def membersSize : List (Node × Node) → Nat
  | [] => 0
  | (key, value) :: rest => nodeSize key + nodeSize value + membersSize rest

end

/-! ### Aliases -/

/-- How deeply collections may be nested. -/
def depthLimit : Nat := 128

/-- How many aliases may be followed for each unit of the size of a text. -/
def aliasesPerNode : Nat := 100

/-- The node that a node stands for, and how many aliases may still be followed. -/
def follow (anchored : List (Nat × Node)) (budget : Nat) : Node → Option (Node × Nat)
  | .aliasOf number =>
    match budget with
    | 0 => none
    | budget + 1 => (anchored.lookup number).map fun n => (n, budget)
  | n => some (n, budget)

/-- Maps a list from the front, handing on the budget. -/
def mapBudget {α β : Type} (f : Nat → α → Option (β × Nat)) :
    (budget : Nat) → List α → Option (List β × Nat)
  | budget, [] => some ([], budget)
  | budget, a :: rest =>
    match f budget a with
    | none => none
    | some (b, budget) => (mapBudget f budget rest).map fun r => (b :: r.1, r.2)

/-- Replaces all aliases in a node that holds no more than `depth` collections inside each
other. -/
def expand (anchored : List (Nat × Node)) : (depth budget : Nat) → Node → Option (Yaml × Nat)
  | depth, budget, n =>
    match depth, follow anchored budget n with
    | _, some (.scalar p text style, budget) => some (.scalar p.tag? text style, budget)
    | depth + 1, some (.sequence p items, budget) =>
      (mapBudget (expand anchored depth) budget items).map fun r => (.sequence p.tag? r.1, r.2)
    | depth + 1, some (.mapping p members, budget) =>
      let member (budget : Nat) (m : Node × Node) : Option ((Yaml × Yaml) × Nat) :=
        match expand anchored depth budget m.1 with
        | none => none
        | some (key, budget) =>
          (expand anchored depth budget m.2).map fun r => ((key, r.1), r.2)
      (mapBudget member budget members).map fun r => (.mapping p.tag? r.1, r.2)
    | _, _ => none

/-- The value of a node; of several anchors with one number the last counts. -/
def ofNode? (n : Node) : Option Yaml :=
  (expand (anchoredNodes n).reverse depthLimit (aliasesPerNode * nodeSize n) n).map Prod.fst

/-- The value of a text. -/
def parse? (s : String) : Option Yaml := do
  let tokens ← Token.scan? s.toList
  let node ← Node.ofTokens? tokens
  ofNode? node

end Yaml

end Provisioning
