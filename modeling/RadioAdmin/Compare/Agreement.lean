import RadioAdmin.Compare.Difference
import RadioAdmin.KeyMaterial
import RadioAdmin.Decimal.Numeral
import RadioAdmin.Text.Blank

/-!
# Agreement of values

The expected side drives the comparison: only its fields are looked up. What is unset on
both sides agrees in any shape, and values are read as a node reads them, so that numbers,
numeric text, flags and spellings of keys agree across kinds.
-/
namespace RadioAdmin.Compare

open KeyMaterial (isKeyField)

/-- Doubles closer than this agree. -/
def tolerance : Float := 1e-9

def near (a b : Float) : Bool := (a - b).abs < tolerance

/-- Whether a text reads as exactly a number, blanks at its ends aside. -/
def readsAs (string : String) (number : Float) : Bool :=
  match Decimal.readFloat (Text.trim string.toList) with
  | some read => read == number
  | none => false

/-- The number that a flag stands for. -/
def flagNumber (flag : Bool) : Float := if flag then 1.0 else 0.0

/-- Agreement of two set values that are not both maps and not both lists. -/
def coerced (expected actual : Value) : Bool :=
  match expected, actual, expected.asNumber?, actual.asNumber? with
  | .int a, .int b, _, _ => a == b
  | _, _, some a, some b => near a b
  | .text a, .text b, _, _ => a == b
  | .bytes a, .bytes b, _, _ => a == b
  | .bool a, .bool b, _, _ => a == b
  | .text string, _, _, some number => readsAs string number
  | _, .text string, some number, _ => readsAs string number
  | .bool flag, _, _, some number => near number (flagNumber flag)
  | _, .bool flag, some number, _ => near number (flagNumber flag)
  | .bool flag, .text string, _, _ => readsAs string (flagNumber flag)
  | .text string, .bool flag, _, _ => readsAs string (flagNumber flag)
  | .bool _, _, _, _ => expected.isTruthy == actual.isTruthy
  | _, .bool _, _, _ => expected.isTruthy == actual.isTruthy
  | _, _, _, _ => expected.display == actual.display

/-- Agreement as in `coerced`, where in a key field every spelling stands for its bytes. -/
def leavesAgree (expected actual : Value) (inKeyField : Bool) : Bool :=
  if inKeyField && (KeyMaterial.isSpelling expected || KeyMaterial.isSpelling actual) then
    KeyMaterial.normalize? expected == KeyMaterial.normalize? actual
  else coerced expected actual

/-- The elements that are set. -/
def present (items : List Value) : List Value := items.filter fun item => !item.isEmpty

/-- Whether two lists have the same members, in any order and number. -/
def sameMembers {α : Type} [BEq α] (a b : List α) : Bool :=
  a.all b.contains && b.all a.contains

/-- The keys of a list; a list of numbers that are bytes is one key. -/
def keysOf (items : List Value) : List (List UInt8) :=
  match KeyMaterial.ofList items with
  | some key => [key]
  | none => items.filterMap KeyMaterial.normalize?

/-- The difference of two lists as a whole, when it is known whether their set elements
agree one by one. Keys and texts compare as sets, all else in order. -/
def listDifference (field : String) (expected actual : List Value) (inOrder : Bool) :
    Option Difference :=
  let expected := present expected
  let actual := present actual
  let agree := if isKeyField field then sameMembers (keysOf expected) (keysOf actual)
    else match expected.mapM Value.asText?, actual.mapM Value.asText? with
      | some a, some b => sameMembers a b
      | _, _ => inOrder
  if agree then none else some (.mismatch field (.list expected) (.list actual))

def isContainer : Value → Bool
  | .map _ | .list _ => true
  | _ => false

mutual

/-- Whether two values of a field agree. The field counts as a key field by its name or
when the flag says so. -/
def valuesAgree : Value → Value → String → Bool → Bool
  | expected, actual, field, keyFlag =>
    if expected.isEmpty || actual.isEmpty then expected.isEmpty && actual.isEmpty
    else match expected, actual with
      | .map a, .map b => (compareFields a b "").isEmpty
      | .list a, .list b =>
        (listDifference field a b (itemsAgree a (present b) (FieldPath.leaf field))).isNone
      | expected, actual => leavesAgree expected actual (keyFlag || isKeyField field)

/-- Whether the set elements of a list agree in order with elements that are all set. -/
def itemsAgree : List Value → List Value → String → Bool
  | [], actual, _ => actual.isEmpty
  | item :: rest, actual, field =>
    if item.isEmpty then itemsAgree rest actual field
    else match actual with
      | [] => false
      | other :: others => valuesAgree item other field false && itemsAgree rest others field

/-- The differences of two maps at a path, in the order of the expected keys at every
depth. Keys of the actual side alone are not looked at. -/
def compareFields : List (String × Value) → List (String × Value) → String → List Difference
  | [], _, _ => []
  | (key, expected) :: rest, actual, path =>
    let field := FieldPath.child path key
    (match Fields.get? actual key with
      | none => if expected.isEmpty then [] else [.missing field expected]
      | some found => match expected, found with
        | .map a, .map b => compareFields a b field
        | .list a, .list b =>
          (listDifference field a b (itemsAgree a (present b) (FieldPath.leaf field))).toList
        | expected, found =>
          if isContainer expected then
            if expected.isEmpty then [] else [.typeMismatch field expected found]
          else if valuesAgree expected found key (isKeyField key) then []
          else [.mismatch field expected found]) ++ compareFields rest actual path

end

/-- The difference of two lists of a field, if there is one. -/
def compareLists (expected actual : List Value) (field : String) : Option Difference :=
  listDifference field expected actual
    (itemsAgree expected (present actual) (FieldPath.leaf field))

end RadioAdmin.Compare
