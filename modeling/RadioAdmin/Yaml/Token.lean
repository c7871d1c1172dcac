/-!
# YAML tokens

The pieces of a YAML text. Indentation shows as the start and the end of blocks, and the
key of a pair has a mark before it whether or not the text writes one.
-/
namespace RadioAdmin.Yaml

/-- How a scalar is written. -/
inductive Style where
  | plain
  | quoted
  | literal
  | folded
  deriving DecidableEq, Repr

inductive Token where
  /-- The version that a directive asks for. -/
  | version (major minor : Nat)
  /-- A shorthand that a directive gives for the beginning of tags. -/
  | shorthand (handle beginning : String)
  | documentStart
  | documentEnd
  | blockSequence
  | blockMapping
  | blockEnd
  | flowSequence
  | flowSequenceEnd
  | flowMapping
  | flowMappingEnd
  | blockEntry
  | flowEntry
  | key
  | value
  | anchor (name : String)
  | alias (name : String)
  /-- A tag as a shorthand and the rest; a tag in full has no shorthand. -/
  | tag (handle suffix : String)
  | scalar (text : String) (style : Style)
  deriving DecidableEq, Repr

end RadioAdmin.Yaml
