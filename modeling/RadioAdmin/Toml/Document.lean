import RadioAdmin.Toml.Assembly
import RadioAdmin.Toml.Scalar

/-!
# TOML documents

A document is a series of lines: a name with its content, the header of a table, or the
header of a further table of an array. Arrays may span lines, tables in braces may not.
-/
namespace RadioAdmin.Toml

/-- One less than the number of parts, or of nested arrays and tables, that is refused. -/
def nestingLimit : Nat := 79

/-- A line of a document. -/
inductive Statement where
  | field (path : List String) (content : Toml)
  | table (path : List String)
  | element (path : List String)

/-- The text after the rest of a line that holds no more than a comment. -/
def endLine (text : List Char) : Option (List Char) :=
  let rest := match text.dropWhile isGap with
    | '#' :: comment => comment.dropWhile isPlain
    | other => other
  if rest.isEmpty then some [] else afterNewline? rest

def isBareNameChar (c : Char) : Bool := c.isAlphanum || c = '_' || c = '-'

/-- One part of a dotted name. -/
def readName : List Char → Option (String × List Char)
  | '"' :: rest => (readBasic rest).map fun (chars, rest) => (String.ofList chars, rest)
  | '\'' :: rest => (readLiteral rest).map fun (chars, rest) => (String.ofList chars, rest)
  | chars =>
    let name := chars.takeWhile isBareNameChar
    if name.isEmpty then none else some (String.ofList name, chars.dropWhile isBareNameChar)

/-- A dotted name of at most `room` parts, with gaps around each. -/
def readPath (room : Nat) (text : List Char) : Option (List String × List Char) :=
  match room with
  | 0 => none
  | room + 1 => do
    let (name, rest) ← readName (text.dropWhile isGap)
    match rest.dropWhile isGap with
    | '.' :: more =>
      let (names, rest) ← readPath room more
      return (name :: names, rest)
    | rest => return ([name], rest)

/-- The text after gaps, line ends and comments. -/
def skipLines (inComment : Bool) : List Char → List Char
  | '\r' :: '\n' :: rest => skipLines false rest
  | c :: rest =>
    if inComment && isPlain c then skipLines true rest
    else if c = '#' then skipLines true rest
    else if isGap c || c = '\n' then skipLines false rest
    else c :: rest
  | [] => []

mutual

/-- The content that a text begins with, of at most `room` nested arrays and tables. The
steps only bound the recursion. -/
def readContent (steps room : Nat) (text : List Char) : Option (Toml × List Char) :=
  match steps with
  | 0 => none
  | steps + 1 => match text, room with
    | '[' :: rest, room + 1 =>
      (readItems steps room rest).map fun (items, rest) => (.array items, rest)
    | '\x7b' :: rest, room + 1 => do
      let (pairs, rest) ← match rest.dropWhile isGap with
        | '\x7d' :: rest => some ([], rest)
        | rest => readPairs steps room rest
      let slot ← Slot.ofPairs pairs
      return (slot.toToml, rest)
    | start, _ => match readQuoted start with
      | some (chars, rest) => some (.text (String.ofList chars), rest)
      | none => readScalar start

/-- The items of an array and the text after it. -/
def readItems (steps room : Nat) (text : List Char) : Option (List Toml × List Char) :=
  match steps with
  | 0 => none
  | steps + 1 => match skipLines false text with
    | ']' :: rest => some ([], rest)
    | start => do
      let (item, rest) ← readContent steps room start
      match skipLines false rest with
      | ',' :: rest =>
        let (items, rest) ← readItems steps room rest
        return (item :: items, rest)
      | ']' :: rest => return ([item], rest)
      | _ => none

/-- The fields of a table in braces that has any, and the text after it. -/
def readPairs (steps room : Nat) (text : List Char) :
    Option (List (List String × Toml) × List Char) :=
  match steps with
  | 0 => none
  | steps + 1 => do
    let (path, rest) ← readPath nestingLimit text
    let (content, rest) ← readContent steps room ((← expect '=' rest).dropWhile isGap)
    match rest.dropWhile isGap with
    | ',' :: rest =>
      let (pairs, rest) ← readPairs steps room rest
      return ((path, content) :: pairs, rest)
    | '\x7d' :: rest => return ([(path, content)], rest)
    | _ => none

end

/-- The line that a text begins with, when it is not empty. -/
def readStatement (text : List Char) : Option (Statement × List Char) :=
  match text with
  | '[' :: '[' :: rest => do
    let (path, rest) ← readPath nestingLimit rest
    return (.element path, ← endLine (← expect ']' (← expect ']' rest)))
  | '[' :: rest => do
    let (path, rest) ← readPath nestingLimit rest
    return (.table path, ← endLine (← expect ']' rest))
  | start => do
    let (path, rest) ← readPath nestingLimit start
    let body := (← expect '=' rest).dropWhile isGap
    let (content, rest) ← readContent (2 * body.length + 2) nestingLimit body
    return (.field path content, ← endLine rest)

/-- The lines of a text. The steps only bound the recursion. -/
def readStatements (steps : Nat) (text : List Char) : Option (List Statement) :=
  match steps, text.dropWhile isGap with
  | _, [] => some []
  | 0, _ => none
  | steps + 1, start => match endLine start with
    | some rest => readStatements steps rest
    | none => do
      let (statement, rest) ← readStatement start
      let others ← readStatements steps rest
      return statement :: others

/-- A document that has been read up to some line, and the path of the table that the names
of the next lines belong to. -/
structure Draft where
  root : Slot
  current : List String

def Draft.add (draft : Draft) : Statement → Option Draft
  | .field path content =>
    (draft.root.change false (Slot.define path content) draft.current).map (⟨·, draft.current⟩)
  | .table path => (draft.root.declare path).map (⟨·, path⟩)
  | .element path => (draft.root.append path).map (⟨·, path⟩)

/-- The table that a whole text gives. A mark of byte order may come first. -/
def parse (text : String) : Option Toml := do
  let chars := match text.toList with
    | '\ufeff' :: rest => rest
    | chars => chars
  let statements ← readStatements (chars.length + 1) chars
  let draft ← statements.foldlM Draft.add ⟨Slot.root, []⟩
  return draft.root.toToml

end RadioAdmin.Toml
