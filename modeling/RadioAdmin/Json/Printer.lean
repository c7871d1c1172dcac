import RadioAdmin.Json.Basic
import RadioAdmin.Decimal.Layout
import RadioAdmin.Encoding.Hex

/-!
# Compact JSON text

No blanks anywhere, names in their order, every character as it is except the quote, the
backslash and the controls below the blank. A double without a JSON number is null.
-/
namespace RadioAdmin.Json

/-- A double is positional while its leading digit stands between the fifth decimal and
the sixteenth whole place. -/
def numberLayout : Decimal.Layout where
  plainFrom := -5
  plainBelow := 16
  wholeMark := ".0"
  upMark := "e+"
  downMark := "e-"

def printFloat (x : Float) : String :=
  if x.isFinite then numberLayout.write x else "null"

/-- The characters that stand for one character inside quotes. -/
def escape (c : Char) : List Char :=
  match c with
  | '"' => ['\\', '"']
  | '\\' => ['\\', '\\']
  | '\x08' => ['\\', 'b']
  | '\x0c' => ['\\', 'f']
  | '\n' => ['\\', 'n']
  | '\r' => ['\\', 'r']
  | '\t' => ['\\', 't']
  | _ => if c.toNat < 0x20 then '\\' :: 'u' :: Hex.padded 4 c.toNat else [c]

def printText (text : String) : String :=
  "\"" ++ String.ofList (text.toList.flatMap escape) ++ "\""

mutual

def print : Json → String
  | .null => "null"
  | .bool value => if value then "true" else "false"
  | .integer value => toString value
  | .float value => printFloat value
  | .text value => printText value
  | .array items => "[" ++ ",".intercalate (printItems items) ++ "]"
  | .object fields => "\x7b" ++ ",".intercalate (printFields fields) ++ "\x7d"

def printItems : List Json → List String
  | [] => []
  | item :: rest => print item :: printItems rest

def printFields : List (String × Json) → List String
  | [] => []
  | (name, content) :: rest => (printText name ++ ":" ++ print content) :: printFields rest

end

end RadioAdmin.Json
