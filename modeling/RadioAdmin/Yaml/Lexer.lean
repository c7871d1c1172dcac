import RadioAdmin.Yaml.Token
import RadioAdmin.Yaml.Tag
import RadioAdmin.Yaml.Plain
import RadioAdmin.Yaml.Quoted
import RadioAdmin.Yaml.Block

/-!
# Tokens of a YAML text

The text is gone through once. A token that may turn out to be the key of a pair keeps its
place, and the mark of the key is put there when the colon comes, which has to be on the
same line and within 1024 characters. Columns open and close blocks outside of flow
collections.
-/
namespace RadioAdmin.Yaml

/-- A token that may be a key: how many tokens come before it, and where it stands. A key
in the column of a block has to turn out as one. -/
structure KeyStart where
  required : Bool
  tokensBefore : Nat
  index : Nat
  line : Nat
  column : Nat

structure Lexer where
  cursor : Cursor
  /-- The columns of the open blocks, the innermost first. -/
  blocks : List Nat
  /-- Whether a key may begin at the next token. -/
  keyAllowed : Bool
  /-- The possible key of the innermost flow collection, or of the text outside of any. -/
  key : Option KeyStart
  /-- The possible keys outside of each open flow collection, the innermost first. -/
  outerKeys : List (Option KeyStart)
  /-- The tokens so far, the last first. -/
  tokens : List Token

namespace Lexer

def start (text : List Char) : Lexer := ⟨Cursor.start text, [], true, none, [], []⟩

def inFlow (lexer : Lexer) : Bool := !lexer.outerKeys.isEmpty

/-- The least column that is inside the innermost block. -/
def leastColumn (lexer : Lexer) : Nat := (lexer.blocks.head?.map (· + 1)).getD 0

def emit (lexer : Lexer) (token : Token) : Lexer := { lexer with tokens := token :: lexer.tokens }

/-- Put a token behind the first tokens of a number. -/
def insert (lexer : Lexer) (tokensBefore : Nat) (token : Token) : Lexer :=
  let later := lexer.tokens.length - tokensBefore
  { lexer with tokens := lexer.tokens.take later ++ token :: lexer.tokens.drop later }

/-- Go past a number of characters. -/
def pass (lexer : Lexer) (count : Nat) : Lexer :=
  { lexer with cursor := lexer.cursor.advance count }

/-- Give up the possible key, which is an error when it has to be one. -/
def dropKey (lexer : Lexer) : Option Lexer :=
  if lexer.key.any KeyStart.required then none else some { lexer with key := none }

/-- Note that the next token may be a key. -/
def noteKey (lexer : Lexer) : Option Lexer := do
  if !lexer.keyAllowed then return lexer
  let here := lexer.cursor
  let next ← lexer.dropKey
  return { next with
    key := some {
      required := !lexer.inFlow && lexer.blocks.head? == some here.column
      tokensBefore := lexer.tokens.length
      index := here.index
      line := here.line
      column := here.column } }

/-- Whether a key can no longer get its colon here. -/
def isStale (cursor : Cursor) (key : KeyStart) : Bool :=
  key.line < cursor.line || key.index + 1024 < cursor.index

/-- Give up the possible keys that are too far back. -/
def dropStaleKeys (lexer : Lexer) : Option Lexer :=
  let stale := isStale lexer.cursor
  if (lexer.key :: lexer.outerKeys).any fun key => key.any fun k => k.required && stale k then none
  else
    let keep (key : Option KeyStart) : Option KeyStart := key.filter fun k => !stale k
    some { lexer with key := keep lexer.key, outerKeys := lexer.outerKeys.map keep }

/-- Open a block at a column that is inside the innermost one, with a token behind the first
tokens of a number. -/
def openBlock (lexer : Lexer) (column tokensBefore : Nat) (token : Token) : Lexer :=
  if lexer.inFlow || column < lexer.leastColumn then lexer
  else { lexer.insert tokensBefore token with blocks := column :: lexer.blocks }

/-- Close the blocks that meet a condition on their columns. -/
def closeBlocks (lexer : Lexer) (ends : Nat → Bool) : Lexer :=
  if lexer.inFlow then lexer
  else
    let closed := lexer.blocks.takeWhile ends
    { lexer with
      blocks := lexer.blocks.drop closed.length
      tokens := List.replicate closed.length .blockEnd ++ lexer.tokens }

/-- Go past blanks and a comment on a line. A mark of byte order may begin the line, and
takes up a column. A tab is no blank where a key may begin outside of flow collections. -/
def skipLine (lexer : Lexer) : Cursor :=
  let here := lexer.cursor
  let start := here.advance (if here.column = 0 && here.rest.head? == some '\ufeff' then 1 else 0)
  let isGap (c : Char) : Bool := c = ' ' || ((lexer.inFlow || !lexer.keyAllowed) && c = '\t')
  (start.skip isGap).skipComment

theorem length_rest_skipLine_le (lexer : Lexer) :
    lexer.skipLine.rest.length ≤ lexer.cursor.rest.length :=
  Nat.le_trans (Cursor.length_rest_skipComment_le _) (Nat.le_trans
    (Cursor.length_rest_skip_le _ _) (Cursor.length_rest_advance_le _ _))

/-- Go past blanks, comments and line breaks. Outside of flow collections a key may begin after
a break. -/
def skipSpaces (lexer : Lexer) : Lexer :=
  match _ : lexer.skipLine.lineBreak? with
  | none => { lexer with cursor := lexer.skipLine }
  | some (_, next) =>
    skipSpaces { lexer with cursor := next, keyAllowed := lexer.keyAllowed || !lexer.inFlow }
termination_by lexer.cursor.rest.length
decreasing_by
  rename_i h
  exact Nat.lt_of_lt_of_le (Cursor.length_rest_lineBreak?_lt h) (length_rest_skipLine_le lexer)

/-- Emit a token that a scan of the text gives. -/
def take (lexer : Lexer) (scan : Scan Token) : Option Lexer := do
  let (token, rest) ← scan lexer.cursor.rest
  return { lexer with cursor := lexer.cursor.reach rest }.emit token

/-- End all blocks and possible keys at a mark that stands outside of them. -/
def leaveAll (lexer : Lexer) : Option Lexer := do
  let next ← (lexer.closeBlocks fun _ => true).dropKey
  return { next with keyAllowed := false }

def directive (lexer : Lexer) : Option Lexer := do
  let next ← (← lexer.leaveAll).take scanDirective
  return { next with cursor := ← next.cursor.endLine? }

def marker (lexer : Lexer) : Option Lexer := do
  let token : Token := if lexer.cursor.rest.head? == some '-' then .documentStart else .documentEnd
  return ((← lexer.leaveAll).pass 3).emit token

def flowStart (lexer : Lexer) (token : Token) : Option Lexer := do
  let next ← lexer.noteKey
  return ({ next with
    key := none, outerKeys := next.key :: next.outerKeys, keyAllowed := true }.pass 1).emit token

def flowEnd (lexer : Lexer) (token : Token) : Option Lexer := do
  let next ← lexer.dropKey
  let outer := match next.outerKeys with
    | key :: rest => { next with key := key, outerKeys := rest }
    | [] => next
  return ({ outer with keyAllowed := false }.pass 1).emit token

def flowEntry (lexer : Lexer) : Option Lexer := do
  let next ← lexer.dropKey
  return ({ next with keyAllowed := true }.pass 1).emit .flowEntry

/-- Open a block here for an entry of a sequence or a mapping, where one may begin. -/
def openHere (lexer : Lexer) (token : Token) : Option Lexer :=
  if lexer.inFlow then some lexer
  else if lexer.keyAllowed then
    some (lexer.openBlock lexer.cursor.column lexer.tokens.length token)
  else none

def blockEntry (lexer : Lexer) : Option Lexer := do
  let next ← (← lexer.openHere .blockSequence).dropKey
  return ({ next with keyAllowed := true }.pass 1).emit .blockEntry

/-- A key that has a mark of its own. -/
def markedKey (lexer : Lexer) : Option Lexer := do
  let next ← (← lexer.openHere .blockMapping).dropKey
  return ({ next with keyAllowed := !lexer.inFlow }.pass 1).emit .key

/-- A colon makes a key of the possible key, or follows a marked one. -/
def colon (lexer : Lexer) : Option Lexer := do
  let next ← match lexer.key with
    | some key =>
      let marked := lexer.insert key.tokensBefore .key
      let opened := marked.openBlock key.column key.tokensBefore .blockMapping
      some { opened with key := none, keyAllowed := false }
    | none => do
      let opened ← lexer.openHere .blockMapping
      some { opened with keyAllowed := !lexer.inFlow }
  return (next.pass 1).emit .value

/-- Emit what may be a key by itself or in front of one. -/
def word (lexer : Lexer) (scan : Scan Token) : Option Lexer := do
  let next ← lexer.noteKey
  { next with keyAllowed := false }.take scan

def blockScalar (lexer : Lexer) (literal : Bool) : Option Lexer := do
  let next ← lexer.dropKey
  let (chars, cursor) ← readBlock literal lexer.leastColumn lexer.cursor
  return { next with keyAllowed := true, cursor := cursor }.emit
    (.scalar (String.ofList chars) (if literal then .literal else .folded))

def quotedScalar (lexer : Lexer) : Option Lexer := do
  let next ← lexer.noteKey
  let (chars, cursor) ← readQuoted lexer.cursor
  return { next with keyAllowed := false, cursor := cursor }.emit
    (.scalar (String.ofList chars) .quoted)

def plainScalar (lexer : Lexer) : Option Lexer := do
  let next ← lexer.noteKey
  let plain ← readPlain lexer.inFlow lexer.leastColumn [] lexer.cursor
  return { next with keyAllowed := plain.brokenLine, cursor := plain.cursor }.emit
    (.scalar (String.ofList plain.text) .plain)

/-- Whether a text without quotes may begin with a character before a text. -/
def startsPlain (inFlow : Bool) (c : Char) (rest : List Char) : Bool :=
  if c = '-' then !rest.head?.any isBlank
  else if c = '?' || c = ':' then !inFlow && !atSpace rest
  else !isSpace c && !",[]\x7b\x7d#&*!|>'\"%@`".contains c

/-- The token that stands here. -/
def token (lexer : Lexer) : Option Lexer :=
  let flow := lexer.inFlow
  if lexer.cursor.atMarker then lexer.marker
  else match lexer.cursor.rest with
    | [] => none
    | c :: rest =>
      if c = '%' && lexer.cursor.column = 0 then lexer.directive
      else if c = '[' then lexer.flowStart .flowSequence
      else if c = '\x7b' then lexer.flowStart .flowMapping
      else if c = ']' then lexer.flowEnd .flowSequenceEnd
      else if c = '\x7d' then lexer.flowEnd .flowMappingEnd
      else if c = ',' then lexer.flowEntry
      else if c = '-' && atSpace rest then lexer.blockEntry
      else if c = '?' && (flow || atSpace rest) then lexer.markedKey
      else if c = ':' && (flow || atSpace rest) then lexer.colon
      else if c = '*' then lexer.word (scanName .alias)
      else if c = '&' then lexer.word (scanName .anchor)
      else if c = '!' then lexer.word (scanTag flow)
      else if c = '|' && !flow then lexer.blockScalar true
      else if c = '>' && !flow then lexer.blockScalar false
      else if c = '\'' || c = '"' then lexer.quotedScalar
      else if startsPlain flow c rest then lexer.plainScalar
      else none

/-- All tokens from here to the end of the text. The steps only bound the recursion. -/
def run (lexer : Lexer) (steps : Nat) : Option (List Token) :=
  match steps with
  | 0 => none
  | steps + 1 => do
    let there ← lexer.skipSpaces.dropStaleKeys
    let next := there.closeBlocks (there.cursor.column < ·)
    if next.cursor.rest.isEmpty then return (← next.leaveAll).tokens.reverse
    (← next.token).run steps

end Lexer

/-- The tokens of a whole text. -/
def tokens (text : String) : Option (List Token) :=
  let chars := text.toList
  if chars.all isAllowed then (Lexer.start chars).run (chars.length + 1) else none

end RadioAdmin.Yaml
