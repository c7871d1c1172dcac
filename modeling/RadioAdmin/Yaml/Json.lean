import RadioAdmin.Yaml.Node
import RadioAdmin.Yaml.Scalar

/-!
# YAML documents as JSON

Aliases are followed, keys keep their text as it is written, and of a repeated key the last
content counts, in the first place. Nesting is limited, and so is the number of aliases
that are followed, lest a short text grow without bounds.
-/
namespace RadioAdmin.Yaml

/-- A count of the aliases that have been followed. -/
abbrev Following := StateT Nat Option

namespace Document

/-- The most collections that may nest. -/
def nestingLimit : Nat := 128

/-- The most aliases that may be followed. -/
def followLimit (document : Document) : Nat := 100 * document.events

/-- The node itself or the one that it stands for. -/
def follow (document : Document) : Node → Following Node
  | .alias number => do
    modify (· + 1)
    if document.followLimit < (← get) then failure
    match document.target? number with
    | some node => return node
    | none => failure
  | node => return node

/-- The text of a key, which has to be a scalar. -/
def keyText (document : Document) (key : Node) : Following String := do
  match ← document.follow key with
  | .scalar _ _ text => return text
  | _ => failure

/-- Whether a tag is one of the document's own. -/
def isOwnTag (tag : Option String) : Bool := tag.any fun tag => tag.startsWith "!"

def jsonOfScalar (tag : Option String) (style : Style) (text : String) : Option Json :=
  match tag with
  | some tag => jsonOfTagged tag text
  | none => if style = .plain then jsonOfPlain text else some (.text text)

/-- The value of a node that may nest `room` collections. -/
def nodeToJson (document : Document) : Nat → Node → Following Json
  | 0, node => do
    match ← document.follow node with
    | .scalar tag style text => jsonOfScalar tag style text
    | _ => failure
  | room + 1, node => do
    match ← document.follow node with
    | .scalar tag style text => jsonOfScalar tag style text
    | .sequence tag items =>
      if isOwnTag tag then failure
      return .array (← items.mapM (nodeToJson document room))
    | .mapping tag pairs =>
      if isOwnTag tag then failure
      let fields ← pairs.mapM fun (key, content) => do
        let name ← document.keyText key
        return (name, ← nodeToJson document room content)
      return .object (Fields.ofPairs fields)
    | .alias _ => failure

def toJson (document : Document) : Option Json :=
  ((document.nodeToJson nestingLimit document.root).run 0).map Prod.fst

end Document

/-- The value of a YAML text. -/
def parse (text : String) : Option Json := (Document.parse text).bind Document.toJson

end RadioAdmin.Yaml
