import RadioAdmin.Fields
import RadioAdmin.Yaml.Lexer

/-!
# YAML documents

A document is a tree of scalars, sequences and mappings in which an alias stands for a node
that has an anchor. Each node has a place, the number of events before it, where a scalar
and an alias are one event and a collection has one at either end. An anchor stands for a
number, the count of names that were in use before it, and of the nodes with one number
only the last can be reached.
-/
namespace RadioAdmin.Yaml

inductive Node where
  | scalar (tag : Option String) (style : Style) (text : String)
  | sequence (tag : Option String) (items : List Node)
  | mapping (tag : Option String) (pairs : List (Node × Node))
  | alias (number : Nat)

/-- A tree with what its aliases stand for. -/
structure Document where
  root : Node
  /-- The places of the nodes with each number, the last first. -/
  places : List (Nat × Nat)
  /-- The nodes with anchors by their places. -/
  anchored : List (Nat × Node)
  events : Nat

namespace Document

/-- The node that an alias stands for. -/
def target? (document : Document) (number : Nat) : Option Node :=
  (document.places.lookup number).bind fun place => document.anchored.lookup place

end Document

/-- The tokens that are left and what has been noted of the nodes so far. -/
structure Builder where
  tokens : List Token
  shorthands : Fields String
  numbers : Fields Nat
  places : List (Nat × Nat)
  anchored : List (Nat × Node)
  events : Nat

abbrev Build := StateT Builder Option

namespace Build

def peek : Build (Option Token) := return (← get).tokens.head?

def skip : Build Unit := modify fun builder => { builder with tokens := builder.tokens.drop 1 }

/-- Whether the next token is one of some. The end is none of them. -/
def at? (tokens : List Token) : Build Bool := return (← peek).any tokens.contains

def expect (token : Token) : Build Unit := do
  if (← peek) == some token then skip else failure

def countEvent : Build Unit := modify fun builder => { builder with events := builder.events + 1 }

/-- Note the start of a node and the anchor it may have, and hand back its place. -/
def begin (anchor : Option String) : Build Nat := do
  let builder ← get
  let place := builder.events
  countEvent
  if let some name := anchor then
    let number := builder.numbers.length
    modify fun builder => { builder with
      numbers := Fields.insert builder.numbers name number
      places := (number, place) :: builder.places }
  return place

/-- Note a complete node that has an anchor. -/
def finish (anchor : Option String) (place : Nat) (node : Node) : Build Node := do
  if anchor.isSome then
    modify fun builder => { builder with anchored := (place, node) :: builder.anchored }
  return node

/-- A node that nothing is written for. -/
def nothing : Build Node := do
  countEvent
  return .scalar none .plain ""

def anchor? : Build (Option String) := do
  match ← peek with
  | some (.anchor name) =>
    skip
    return some name
  | _ => return none

/-- The tag with its shorthand resolved; an unknown shorthand is an error. -/
def tag? : Build (Option String) := do
  match ← peek with
  | some (.tag handle suffix) =>
    skip
    if handle.isEmpty then return some suffix
    match Fields.get? (← get).shorthands handle with
    | some beginning => return some (beginning ++ suffix)
    | none => failure
  | _ => return none

/-- An anchor and a tag in either order. -/
def properties : Build (Option String × Option String) := do
  match ← anchor? with
  | some name => return (some name, ← tag?)
  | none =>
    let tag ← tag?
    return (← anchor?, tag)

/-- An alias of a node that has begun before it. -/
def aliasOf (name : String) : Build Node := do
  skip
  match Fields.get? (← get).numbers name with
  | some number =>
    countEvent
    return .alias number
  | none => failure

mutual

/-- A node. Blocks may be forbidden, and a sequence without indentation allowed, where it
stands. The steps only bound the recursion. -/
def node (steps : Nat) (block unindented : Bool) : Build Node :=
  match steps with
  | 0 => failure
  | steps + 1 => do
    if let some (.alias name) := ← peek then return ← aliasOf name
    let (anchor, tag) ← properties
    let sequence (items : Build (List Node)) : Build Node := do
      let place ← begin anchor
      let items ← items
      countEvent
      finish anchor place (.sequence tag items)
    let mapping (pairs : Build (List (Node × Node))) : Build Node := do
      let place ← begin anchor
      let pairs ← pairs
      countEvent
      finish anchor place (.mapping tag pairs)
    match ← peek, block with
    | some .blockEntry, _ =>
      if unindented then sequence (unindentedItems steps)
      else if anchor.isSome || tag.isSome then
        finish anchor (← begin anchor) (.scalar tag .plain "")
      else failure
    | some (.scalar text style), _ =>
      skip
      let plainTag := if tag == some "!" then none else tag
      finish anchor (← begin anchor) (.scalar plainTag style text)
    | some .flowSequence, _ => sequence (skip *> flowItems steps true)
    | some .flowMapping, _ => mapping (skip *> flowPairs steps true)
    | some .blockSequence, true => sequence (skip *> blockItems steps)
    | some .blockMapping, true => mapping (skip *> blockPairs steps)
    | _, _ =>
      if anchor.isSome || tag.isSome then finish anchor (← begin anchor) (.scalar tag .plain "")
      else failure

/-- A node, or nothing before one of some tokens. -/
def nodeBefore (steps : Nat) (block unindented : Bool) (ends : List Token) : Build Node :=
  match steps with
  | 0 => failure
  | steps + 1 => do
    if ← at? ends then nothing else node steps block unindented

def blockItems (steps : Nat) : Build (List Node) :=
  match steps with
  | 0 => failure
  | steps + 1 => do
    if ← at? [.blockEnd] then
      skip
      return []
    expect .blockEntry
    let item ← nodeBefore steps true false [.blockEntry, .blockEnd]
    return item :: (← blockItems steps)

/-- The items of a sequence in the column of the mapping around it. -/
def unindentedItems (steps : Nat) : Build (List Node) :=
  match steps with
  | 0 => failure
  | steps + 1 => do
    if !(← at? [.blockEntry]) then return []
    skip
    let item ← nodeBefore steps true false [.blockEntry, .key, .value, .blockEnd]
    return item :: (← unindentedItems steps)

def blockPairs (steps : Nat) : Build (List (Node × Node)) :=
  match steps with
  | 0 => failure
  | steps + 1 => do
    if ← at? [.blockEnd] then
      skip
      return []
    expect .key
    let key ← nodeBefore steps true true [.key, .value, .blockEnd]
    let value ← if ← at? [.value] then
        skip *> nodeBefore steps true true [.key, .value, .blockEnd]
      else nothing
    return (key, value) :: (← blockPairs steps)

def flowItems (steps : Nat) (first : Bool) : Build (List Node) :=
  match steps with
  | 0 => failure
  | steps + 1 => do
    if !first && !(← at? [.flowSequenceEnd]) then expect .flowEntry
    if ← at? [.flowSequenceEnd] then
      skip
      return []
    let item ← if ← at? [.key] then flowPair steps else node steps false false
    return item :: (← flowItems steps false)

/-- A mapping of a single pair, in a sequence. The token that shows that the marked key is
missing is lost. -/
def flowPair (steps : Nat) : Build Node :=
  match steps with
  | 0 => failure
  | steps + 1 => do
    skip
    let place ← begin none
    let key ← if ← at? [.value, .flowEntry, .flowSequenceEnd] then skip *> nothing
      else node steps false false
    let value ← if ← at? [.value] then
        skip *> nodeBefore steps false false [.flowEntry, .flowSequenceEnd]
      else nothing
    countEvent
    finish none place (.mapping none [(key, value)])

def flowPairs (steps : Nat) (first : Bool) : Build (List (Node × Node)) :=
  match steps with
  | 0 => failure
  | steps + 1 => do
    if !first && !(← at? [.flowMappingEnd]) then expect .flowEntry
    if ← at? [.flowMappingEnd] then
      skip
      return []
    let marked ← at? [.key]
    let key ← if marked then
        skip *> nodeBefore steps false false [.value, .flowEntry, .flowMappingEnd]
      else node steps false false
    let value ← if marked && (← at? [.value]) then
        skip *> nodeBefore steps false false [.flowEntry, .flowMappingEnd]
      else nothing
    return (key, value) :: (← flowPairs steps false)

end

/-- Note the directives of a document: at most one version, which has to be known, and
shorthands that differ. -/
def directives : List Token → Bool → Build Unit
  | .version major minor :: rest, versionGiven => do
    if versionGiven || major ≠ 1 || (minor ≠ 1 && minor ≠ 2) then failure
    skip
    directives rest true
  | .shorthand handle beginning :: rest, versionGiven => do
    if Fields.has (← get).shorthands handle then failure
    skip
    modify fun builder => { builder with
      shorthands := Fields.insert builder.shorthands handle beginning }
    directives rest versionGiven
  | _, _ => return ()

/-- The shorthands of every document that does not give them otherwise. -/
def defaultShorthands : Fields String := [("!", "!"), ("!!", "tag:yaml.org,2002:")]

/-- The shorthands of a document in front of the default ones. -/
def addDefaults : Build Unit := modify fun builder => { builder with
  shorthands := defaultShorthands.foldl (fun all pair =>
    if Fields.has all pair.1 then all else Fields.insert all pair.1 pair.2) builder.shorthands }

/-- The tokens that may come before the start of a document. -/
def opensDocument : Token → Bool
  | .version _ _ | .shorthand _ _ | .documentStart => true
  | _ => false

/-- A document that is all there is, but for marks of its end. -/
def document : Build Node := do
  let tokens := (← get).tokens
  let steps := 4 * tokens.length + 4
  let root ← if tokens.head?.any opensDocument then do
      directives tokens false
      addDefaults
      expect .documentStart
      let next ← peek
      if next.all fun token => opensDocument token || token == .documentEnd then nothing
      else node steps true false
    else do
      addDefaults
      node steps true false
  if (← get).tokens.all (· == .documentEnd) then return root else failure

end Build

/-- The document that is the whole text; nothing at all is a document of nothing. -/
def Document.parse (text : String) : Option Document := do
  let tokens ← tokens text
  let read := if tokens.isEmpty then Build.nothing else Build.document
  let (root, builder) ← read.run ⟨tokens, [], [], [], [], 0⟩
  return ⟨root, builder.places, builder.anchored, builder.events⟩

end RadioAdmin.Yaml
