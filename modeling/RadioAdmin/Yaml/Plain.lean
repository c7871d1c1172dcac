import RadioAdmin.Yaml.Cursor

/-!
# YAML text without quotes

Words with spaces between them, up to a comment, a colon before a space, a line that is
not indented enough, the mark of a document, or punctuation of a flow collection.
-/
namespace RadioAdmin.Yaml

/-- Punctuation that ends a text in a flow collection. -/
def isFlowMark (c : Char) : Bool := c = ',' || c = '[' || c = ']' || c = '\x7b' || c = '\x7d'

/-- A colon that can belong neither to a text in a flow collection nor to a pair. -/
def atLoneColon : List Char → Bool
  | ':' :: c :: _ => isFlowMark c || c = '?'
  | _ => false

/-- One word. -/
def plainWord (inFlow : Bool) : List Char → List Char
  | [] => []
  | c :: rest =>
    if isSpace c || (c = ':' && atSpace rest) ||
        (inFlow && (isFlowMark c || atLoneColon (c :: rest))) then []
    else c :: plainWord inFlow rest

/-- Whether a run of spaces has a tab in the indentation of a line. The column is unknown
before the first break. -/
def hasTabWithin (indent : Nat) : Option Nat → List Char → Bool
  | _, [] => false
  | column, c :: rest =>
    if isBreak c then hasTabWithin indent (some 0) rest
    else (c = '\t' && column.any (· < indent)) || hasTabWithin indent (column.map (· + 1)) rest

/-- A text without quotes, where it ends, and whether a line break comes before that. -/
structure PlainText where
  text : List Char
  cursor : Cursor
  brokenLine : Bool

/-- The text that begins here, after a gap that belongs to it only if a word follows. -/
def readPlain (inFlow : Bool) (indent : Nat) (gap : List Char) (cursor : Cursor) :
    Option PlainText :=
  let word := plainWord inFlow cursor.rest
  if cursor.atMarker || cursor.rest.head? == some '#' then some ⟨[], cursor, gap.any isBreak⟩
  else
    let after := cursor.advance word.length
    let next := after.rest.takeWhile isSpace
    let following := after.advance next.length
    let text := if word.isEmpty then [] else fold gap ++ word
    if inFlow && atLoneColon after.rest then none
    else if next = [] then some ⟨text, after, word.isEmpty && gap.any isBreak⟩
    else if hasTabWithin indent none next then none
    else if !inFlow && following.column < indent then some ⟨text, following, next.any isBreak⟩
    else (readPlain inFlow indent next following).map fun more =>
      { more with text := text ++ more.text }
termination_by cursor.rest.length
decreasing_by
  rename_i hnext _ _
  have hrest : (cursor.advance (plainWord inFlow cursor.rest).length).rest ≠ [] := fun h =>
    hnext (by simp [next, after, word, h])
  have hcount : next.length ≠ 0 := fun h => hnext (List.length_eq_zero_iff.mp h)
  exact Nat.lt_of_lt_of_le (Cursor.length_rest_advance_lt hrest hcount)
    (Cursor.length_rest_advance_le cursor _)

end RadioAdmin.Yaml
