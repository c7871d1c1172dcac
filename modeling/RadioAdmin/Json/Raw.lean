import RadioAdmin.Json.Basic
import RadioAdmin.Encoding.Hex

/-!
# JSON text as a tree

Reading takes two steps, since the parts of a text that nobody asks for have to be
grammatical and no more. The first step, here, is the grammar: numbers keep their digits
and quoted texts their escapes. It goes through the characters once, with the open
containers on a stack.
-/
namespace RadioAdmin

/-- One piece of a quoted text: a character, or a coded unit of sixteen bits. -/
inductive TextPiece where
  | char (c : Char)
  | coded (unit : Nat)
  deriving DecidableEq, Repr

/-- A number as written. The fraction and the exponent are absent or have digits. -/
structure WrittenNumber where
  negative : Bool
  whole : List Nat
  fraction : Option (List Nat)
  exponent : Option Int
  deriving DecidableEq, Repr

/-- A JSON text as a tree. -/
inductive RawJson where
  | null
  | bool (value : Bool)
  | number (written : WrittenNumber)
  | text (pieces : List TextPiece)
  | array (items : List RawJson)
  | object (fields : List (List TextPiece × RawJson))

namespace RawJson

/-- A container that is still open. An object may hold a name that waits for its content. -/
inductive Frame where
  | array (done : List RawJson)
  | object (done : List (List TextPiece × RawJson)) (name : List TextPiece)

/-- What has to come next. A container that has just been opened may close at once. -/
inductive Expecting where
  | value (orClose : Bool)
  | name (orClose : Bool)
  | colon
  | separator
  | nothing (done : RawJson)

/-- The place within a token. -/
inductive Within where
  | gap
  | quotes (done : List TextPiece)
  | escape (done : List TextPiece)
  | code (done : List TextPiece) (digits value : Nat)
  | number (done : List Char)
  | word (done : List Char)

structure Reader where
  stack : List Frame
  expecting : Expecting
  within : Within

/-- Give a complete value to the innermost open container. -/
def place (value : RawJson) : List Frame → Reader
  | [] => ⟨[], .nothing value, .gap⟩
  | .array done :: rest => ⟨.array (value :: done) :: rest, .separator, .gap⟩
  | .object done name :: rest => ⟨.object ((name, value) :: done) [] :: rest, .separator, .gap⟩

/-- A leaf other than a quoted text stands where a value may stand. -/
def Reader.leaf (reader : Reader) (value : RawJson) : Option Reader :=
  match reader.expecting with
  | .value _ => some (place value reader.stack)
  | _ => none

/-- A quoted text is a value or the name of a field. -/
def Reader.quoted (reader : Reader) (pieces : List TextPiece) : Option Reader :=
  match reader.expecting, reader.stack with
  | .value _, stack => some (place (.text pieces) stack)
  | .name _, .object done _ :: rest => some ⟨.object done pieces :: rest, .colon, .gap⟩
  | _, _ => none

def Reader.mark (reader : Reader) (c : Char) : Option Reader :=
  match c, reader.expecting, reader.stack with
  | '[', .value _, stack => some ⟨.array [] :: stack, .value true, .gap⟩
  | ']', .value true, .array done :: rest => some (place (.array done.reverse) rest)
  | ']', .separator, .array done :: rest => some (place (.array done.reverse) rest)
  | '{', .value _, stack => some ⟨.object [] [] :: stack, .name true, .gap⟩
  | '}', .name true, .object done _ :: rest => some (place (.object done.reverse) rest)
  | '}', .separator, .object done _ :: rest => some (place (.object done.reverse) rest)
  | ',', .separator, .array done :: rest => some ⟨.array done :: rest, .value false, .gap⟩
  | ',', .separator, .object done name :: rest =>
    some ⟨.object done name :: rest, .name false, .gap⟩
  | ':', .colon, stack => some ⟨stack, .value false, .gap⟩
  | _, _, _ => none

def isGap (c : Char) : Bool := c = ' ' || c = '\n' || c = '\t' || c = '\r'

def isNumberChar (c : Char) : Bool :=
  c.isDigit || c = '-' || c = '+' || c = '.' || c = 'e' || c = 'E'

private def digitValue (c : Char) : Nat := c.toNat - '0'.toNat

private def exponent? : List Char → Option (Option Int)
  | [] => some none
  | mark :: rest =>
    let (negative, digits) := match rest with
      | '-' :: more => (true, more)
      | '+' :: more => (false, more)
      | more => (false, more)
    if (mark = 'e' ∨ mark = 'E') ∧ digits ≠ [] ∧ digits.all Char.isDigit then
      let size : Int := digits.foldl (fun n c => 10 * n + digitValue c) 0
      some (some (if negative then -size else size))
    else none

/-- A number: no digit follows a leading zero, and every part that is begun has digits. -/
def number? (text : List Char) : Option WrittenNumber :=
  let (negative, body) := match text with
    | '-' :: rest => (true, rest)
    | rest => (false, rest)
  let whole := body.takeWhile Char.isDigit
  let afterWhole := body.dropWhile Char.isDigit
  if whole.isEmpty || (whole.head? == some '0' && 1 < whole.length) then none
  else
    match afterWhole with
    | '.' :: rest =>
      let fraction := rest.takeWhile Char.isDigit
      if fraction.isEmpty then none
      else (exponent? (rest.dropWhile Char.isDigit)).map fun exponent =>
        ⟨negative, whole.map digitValue, some (fraction.map digitValue), exponent⟩
    | rest => (exponent? rest).map fun exponent => ⟨negative, whole.map digitValue, none, exponent⟩

def word? (text : String) : Option RawJson :=
  if text = "null" then some .null
  else if text = "true" then some (.bool true)
  else if text = "false" then some (.bool false)
  else none

/-- The character that an escape of one letter stands for. -/
def unescape? (c : Char) : Option Char :=
  match c with
  | '"' | '\\' | '/' => some c
  | 'b' => some '\x08'
  | 'f' => some '\x0c'
  | 'n' => some '\n'
  | 'r' => some '\r'
  | 't' => some '\t'
  | _ => none

/-- A character between tokens. -/
def Reader.inGap (reader : Reader) (c : Char) : Option Reader :=
  if isGap c then some { reader with within := .gap }
  else if c = '"' then some { reader with within := .quotes [] }
  else if c.isDigit || c = '-' then some { reader with within := .number [c] }
  else if c.isAlpha then some { reader with within := .word [c] }
  else reader.mark c

/-- End a token that only its surroundings delimit. -/
def Reader.settle (reader : Reader) : Option Reader :=
  match reader.within with
  | .gap => some reader
  | .number done => (number? done.reverse).bind fun written => reader.leaf (.number written)
  | .word done => (word? (String.ofList done.reverse)).bind reader.leaf
  | _ => none

def Reader.step (reader : Reader) (c : Char) : Option Reader :=
  match reader.within with
  | .gap => reader.inGap c
  | .quotes done =>
    if c = '"' then reader.quoted done.reverse
    else if c = '\\' then some { reader with within := .escape done }
    else if c.toNat < 0x20 then none
    else some { reader with within := .quotes (.char c :: done) }
  | .escape done =>
    if c = 'u' then some { reader with within := .code done 0 0 }
    else (unescape? c).map fun meant => { reader with within := .quotes (.char meant :: done) }
  | .code done digits value => (Hex.value? c).map fun digit =>
      let unit := 16 * value + digit
      if digits = 3 then { reader with within := .quotes (.coded unit :: done) }
      else { reader with within := .code done (digits + 1) unit }
  | .number done =>
    if isNumberChar c then some { reader with within := .number (c :: done) }
    else reader.settle.bind fun settled => settled.inGap c
  | .word done =>
    if c.isAlpha then some { reader with within := .word (c :: done) }
    else reader.settle.bind fun settled => settled.inGap c

/-- The tree of a text that is one JSON value and nothing else. -/
def read (text : String) : Option RawJson := do
  let reader ← text.toList.foldlM Reader.step ⟨[], .value false, .gap⟩
  match (← reader.settle).expecting with
  | .nothing done => some done
  | _ => none

end RawJson

end RadioAdmin
