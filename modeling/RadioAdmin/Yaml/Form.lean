import RadioAdmin.Yaml.Node
import RadioAdmin.Yaml.Scalar
import RadioAdmin.Record

/-!
# Records in YAML

Where a text is asked for, any scalar gives its own; flags and numbers have to be written
without quotes, or in a literal block with a tag that says so. A record is a mapping, and
an empty scalar is an empty record or list. Contents of unknown names are not looked at.
-/
namespace RadioAdmin.Yaml.Document

/-- The node itself or the one that it stands for. -/
def resolve? (document : Document) : Node → Option Node
  | .alias number => document.target? number
  | node => some node

/-- The text of any scalar. -/
def text? (document : Document) (node : Node) : Option String :=
  match document.resolve? node with
  | some (.scalar _ _ text) => some text
  | _ => none

/-- The text of a scalar that is written as one of a kind. -/
def written? (document : Document) (kind : String) (node : Node) : Option String :=
  match document.resolve? node with
  | some (.scalar _ .plain text) => some text
  | some (.scalar (some tag) .literal text) => if tag == coreTag kind then some text else none
  | _ => none

def isEmptyScalar : Node → Bool
  | .scalar _ style text => style = .plain && text.isEmpty
  | _ => false

def list? (document : Document) (node : Node) : Option (List Node) :=
  match document.resolve? node with
  | some (.sequence _ items) => some items
  | some other => if isEmptyScalar other then some [] else none
  | none => none

def record? (document : Document) (known : List String) (node : Node) : Option (Record Node) :=
  match document.resolve? node with
  | some (.mapping _ pairs) =>
    (pairs.mapM fun pair => (document.text? pair.1).map (·, pair.2)).bind
      (Record.ofMap known)
  | some other => if isEmptyScalar other then Record.ofMap known [] else none
  | none => none

/-- Whether a node stands for absence. One that is tagged so has to be written so. -/
def isAbsent? (document : Document) (node : Node) : Option Bool :=
  match document.resolve? node with
  | some (.scalar tag .plain text) =>
    if tag == some (coreTag "null") then if isNothing text then some true else none
    else some (tag.isNone && (text.isEmpty || isNothing text))
  | some _ => some false
  | none => none

/-- How YAML shows records and their contents. -/
def form (document : Document) : Form Node where
  text := document.text?
  flag node := (document.written? "bool" node).bind flag?
  natural node := (document.written? "int" node).bind fun text => natural? text.toList
  list := document.list?
  record := document.record?
  isAbsent := document.isAbsent?

end RadioAdmin.Yaml.Document
