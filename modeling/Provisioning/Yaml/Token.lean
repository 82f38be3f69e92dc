/-! # YAML tokens

    The parts that a YAML text is made of. Block collections have no brackets in the text; their
    starts and ends, which follow from the indentation, are tokens all the same.

    Anchors are known by number: the number of an anchor is the count of different names that
    were given to anchors before it. A name that is given a second time gets a new number, and
    the next new name may get that number again.
-/

namespace Provisioning.Yaml

/-- How a scalar is written. -/
inductive ScalarStyle
  | plain
  | singleQuoted
  | doubleQuoted
  | literal
  | folded
  deriving DecidableEq, Repr

/-- A part of a YAML text. -/
inductive Token
  | versionDirective (major minor : Nat)
  | tagDirective (handle start : String)
  | documentStart
  | documentEnd
  | blockSequenceStart
  | blockMappingStart
  | blockEnd
  | flowSequenceStart
  | flowSequenceEnd
  | flowMappingStart
  | flowMappingEnd
  | blockEntry
  | flowEntry
  | key
  | value
  | aliasOf (number : Nat)
  | anchor (number : Nat)
  | tag (handle suffix : String)
  | scalar (text : String) (style : ScalarStyle)
  deriving DecidableEq, Repr

end Provisioning.Yaml
