import RadioAdmin.Decimal.Numeral
import RadioAdmin.Encoding.Hex
import RadioAdmin.Json.Basic

/-!
# What YAML scalars mean

The core schema: spellings of nothing, flags, integers in four radices, and doubles. A
decimal with a leading zero is text, an integer that 64 bits cannot hold is an error up to
128 bits, and beyond them it is a double.
-/
namespace RadioAdmin.Yaml

def isNothing (text : String) : Bool :=
  text == "null" || text == "Null" || text == "NULL" || text == "~"

def flag? (text : String) : Option Bool :=
  if text == "true" || text == "True" || text == "TRUE" then some true
  else if text == "false" || text == "False" || text == "FALSE" then some false
  else none

/-- A decimal of two or more digits of which the first is zero, with or without a sign. -/
def hasLeadingZero (text : List Char) : Bool :=
  let digits := (Decimal.splitSign text).2
  1 < digits.length && digits.head? == some '0' && digits.all Char.isDigit

/-- The number of a run of digits that is not empty. -/
def inRadix? (radix : Nat) (digits : List Char) : Option Nat := do
  if digits.isEmpty then none
  let values ← digits.mapM fun c => (Hex.value? c).filter (· < radix)
  return values.foldl (fun n digit => radix * n + digit) 0

/-- An integer of any size, with at most one sign. -/
def integer? (text : List Char) : Option Int :=
  let (negative, body) := Decimal.splitSign text
  let size := match body with
    | '0' :: 'x' :: rest => inRadix? 16 rest
    | '0' :: 'o' :: rest => inRadix? 8 rest
    | '0' :: 'b' :: rest => inRadix? 2 rest
    | _ => if hasLeadingZero body then none else inRadix? 10 body
  size.map fun size => if negative then -(size : Int) else size

/-- An integer without a minus sign. -/
def natural? (text : List Char) : Option Nat :=
  if text.head? = some '-' then none else (integer? text).map Int.toNat

/-- How many integers 64 bits can tell apart. -/
def wordSize : Int := UInt64.size

/-- Whether an integer fits 64 bits, with or without a sign. -/
def fitsWord (number : Int) : Bool := -wordSize / 2 ≤ number && number < wordSize

/-- Whether an integer fits 128 bits, with or without a sign. -/
def fitsTwoWords (number : Int) : Bool :=
  -(wordSize * wordSize) / 2 ≤ number && number < wordSize * wordSize

/-- A decimal that is finite, or a name of infinity or of no number. -/
def float? (text : String) : Option Float :=
  if [".inf", ".Inf", ".INF", "+.inf", "+.Inf", "+.INF"].contains text then some Decimal.infinity
  else if ["-.inf", "-.Inf", "-.INF"].contains text then some (-Decimal.infinity)
  else if [".nan", ".NaN", ".NAN"].contains text then some (0.0 / 0.0)
  else ((Decimal.readNumeral text.toList).map Decimal.Numeral.toFloat).filter Float.isFinite

/-- A double as JSON, which has no infinite ones. -/
def jsonOfFloat (number : Float) : Json := if number.isFinite then .float number else .null

/-- An integer as JSON, if there is one that does not exceed 128 bits; inside, none marks the
error of exceeding 64. -/
def jsonOfInteger? (text : List Char) : Option (Option Json) :=
  ((integer? text).filter fitsTwoWords).map fun number =>
    if fitsWord number then some (.integer number) else none

/-- What a text without quotes and tags means. -/
def jsonOfPlain (text : String) : Option Json :=
  if text.isEmpty || isNothing text then some .null
  else match flag? text with
    | some flag => some (.bool flag)
    | none => match jsonOfInteger? text.toList with
      | some outcome => outcome
      | none =>
        if hasLeadingZero text.toList then some (.text text)
        else some (((float? text).map jsonOfFloat).getD (.text text))

/-- The full form of a tag of the core schema. -/
def coreTag (name : String) : String := "tag:yaml.org,2002:" ++ name

/-- What a scalar with a tag means. Tags of the core schema have to fit the text; other
full tags make it text, and tags of one's own are errors. -/
def jsonOfTagged (tag text : String) : Option Json :=
  if tag.startsWith "!" then none
  else if tag == coreTag "bool" then (flag? text).map .bool
  else if tag == coreTag "int" then (jsonOfInteger? text.toList).bind id
  else if tag == coreTag "float" then (float? text).map jsonOfFloat
  else if tag == coreTag "null" then if isNothing text then some .null else none
  else some (.text text)

end RadioAdmin.Yaml
