import RadioAdmin.Json.Raw

/-!
# The meaning of a JSON text

Coded units become characters, in pairs above the first plane. A number without fraction
and exponent that fits a word is an integer. All other numbers are doubles, found by two
roundings: the leading digits as a word of 64 bits, then that word scaled by a power of
ten. A double that would be infinite is an error, and so is a value nested too deep.
-/
namespace RadioAdmin

def isLeading (unit : Nat) : Bool := 0xD800 ≤ unit && unit ≤ 0xDBFF

def isTrailing (unit : Nat) : Bool := 0xDC00 ≤ unit && unit ≤ 0xDFFF

/-- The characters of a quoted text; a unit of a pair alone is an error. -/
def charsOfPieces : List TextPiece → Option (List Char)
  | [] => some []
  | .char c :: rest => (charsOfPieces rest).map (c :: ·)
  | .coded high :: .coded low :: rest =>
    if isLeading high then
      if isTrailing low then
        (charsOfPieces rest).map
          (Char.ofNat (0x10000 + (high - 0xD800) * 0x400 + (low - 0xDC00)) :: ·)
      else none
    else if isTrailing high then none
    else (charsOfPieces (.coded low :: rest)).map (Char.ofNat high :: ·)
  | .coded unit :: rest =>
    if isLeading unit || isTrailing unit then none
    else (charsOfPieces rest).map (Char.ofNat unit :: ·)

def textOfPieces (pieces : List TextPiece) : Option String :=
  (charsOfPieces pieces).map String.ofList

namespace WrittenNumber

/-- Append digits to a word while it holds them; the digits from the first that does not
fit are left over. -/
def absorb (word : Nat) : List Nat → Nat × List Nat
  | [] => (word, [])
  | digit :: rest =>
    if 10 * word + digit < UInt64.size then absorb (10 * word + digit) rest
    else (word, digit :: rest)

/-- A word times a power of ten in doubles, none when that is infinite. Below the range of
powers two steps suffice: after the second nothing is left. -/
def scale (word : Nat) (exponent : Int) : Option Float :=
  let x := Float.ofNat word
  if exponent < -308 then
    if exponent + 308 < -308 then some 0.0
    else some (x / 1e308 / Float.ofScientific 1 false (exponent + 308).natAbs)
  else if exponent < 0 then some (x / Float.ofScientific 1 false exponent.natAbs)
  else if exponent ≤ 308 then
    let scaled := x * Float.ofScientific 1 false exponent.toNat
    if scaled.isFinite then some scaled else none
  else if word = 0 then some 0.0
  else none

/-- The word of the leading digits and the power of ten that goes with it. -/
def parts (n : WrittenNumber) : Nat × Int :=
  let (word, left) := absorb 0 n.whole
  let fraction := n.fraction.getD []
  let (word', left') := absorb word fraction
  (word', left.length - (fraction.length - left'.length : Nat) + n.exponent.getD 0)

/-- The number as an integer or a double. A negative zero is a double. -/
def toJson (n : WrittenNumber) : Option Json :=
  let asFloat := (scale n.parts.1 n.parts.2).map fun size =>
    Json.float (if n.negative then -size else size)
  if n.fraction.isSome || n.exponent.isSome then asFloat
  else match absorb 0 n.whole with
    | (word, []) =>
      if !n.negative then some (.integer word)
      else if word = 0 ∨ UInt64.size < 2 * word then asFloat
      else some (.integer (-word))
    | _ => asFloat

end WrittenNumber

namespace RawJson

mutual

/-- The value of a tree that may nest `room` containers. Of a repeated name the last
content counts, in the first place. -/
def toJson : RawJson → Nat → Option Json
  | .null, _ => some .null
  | .bool value, _ => some (.bool value)
  | .number written, _ => written.toJson
  | .text pieces, _ => (textOfPieces pieces).map .text
  | .array _, 0 => none
  | .array items, room + 1 => (itemsToJson items room).map .array
  | .object _, 0 => none
  | .object fields, room + 1 =>
    (fieldsToJson fields room).map fun fields => .object (Fields.ofPairs fields)

def itemsToJson : List RawJson → Nat → Option (List Json)
  | [], _ => some []
  | item :: rest, room => do
    let item ← toJson item room
    let rest ← itemsToJson rest room
    return item :: rest

def fieldsToJson : List (List TextPiece × RawJson) → Nat → Option (List (String × Json))
  | [], _ => some []
  | (name, content) :: rest, room => do
    let name ← textOfPieces name
    let content ← toJson content room
    let rest ← fieldsToJson rest room
    return (name, content) :: rest

end

end RawJson

namespace Json

/-- The most containers that may nest in a text. -/
def nestingLimit : Nat := 127

/-- The value of a JSON text. -/
def parse (text : String) : Option Json :=
  (RawJson.read text).bind fun raw => raw.toJson nestingLimit

end Json

end RadioAdmin
