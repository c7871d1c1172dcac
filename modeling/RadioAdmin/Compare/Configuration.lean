import RadioAdmin.Compare.Agreement

/-!
# Comparison of whole configurations

A section may come wrapped in a map whose only key is the name of the section. Both sides
are unwrapped before their fields are compared, the actual side also by the section that
the caller asks for.
-/
namespace RadioAdmin.Compare

/-- The sections that wrap their contents under their own name. -/
def envelopeKeys : List String :=
  ["device", "lora", "position", "power", "network", "display", "bluetooth", "security", "channel"]

/-- The contents of a map whose only key names a section. -/
def unwrap? : Value → Option Value
  | .map [(key, inner)] => if envelopeKeys.contains key then some inner else none
  | _ => none

def unwrapExpected (expected : Value) : Value := (unwrap? expected).getD expected

/-- The actual side without an envelope, or else the section in it that was asked for. -/
def unwrapActual (actual : Value) (sectionName : Option String) : Value :=
  ((unwrap? actual).or (sectionName.bind actual.get?)).getD actual

/-- The set fields of a map as missing, each under its own key. -/
def allMissing (fields : List (String × Value)) : List Difference :=
  (fields.filter fun field => !field.2.isEmpty).map fun field => .missing field.1 field.2

/-- The set fields that only the actual map has. -/
def extras (expected actual : List (String × Value)) : List Difference :=
  (actual.filter fun field => !Fields.has expected field.1 && !field.2.isEmpty).map
    fun field => .extra field.1 field.2

/-- The differences of two unwrapped configurations; `root` names the whole of them. -/
def compareUnwrapped (expected actual : Value) (root : String) (allowUndefined : Bool) :
    List Difference :=
  match expected, actual with
  | .map a, .map b =>
    compareFields a b "" ++ (if allowUndefined then [] else extras a b)
  | expected, actual =>
    if valuesAgree expected actual root false then []
    else match expected, actual with
      | .map _, _ | _, .map _ => [.typeMismatch root expected actual]
      | _, _ => [.mismatch root expected actual]

/-- The differences of an expected configuration from the one on the node. Nothing is
expected of an unset configuration, and everything is missing from an unset one. Fields
that only the node has are differences when undefined fields are not allowed. -/
def compareConfigs (expected actual : Value) (sectionName : Option String)
    (allowUndefined : Bool) : List Difference :=
  let root := sectionName.getD ""
  if expected.isEmpty then []
  else if actual.isEmpty then
    match expected with
    | .map fields => allMissing fields
    | other => [.missing root other]
  else compareUnwrapped (unwrapExpected expected) (unwrapActual actual sectionName) root
    allowUndefined

/-- Whether a configuration meets the expected one. -/
def configsAgree (expected actual : Value) (sectionName : Option String) : Bool :=
  (compareConfigs expected actual sectionName true).isEmpty

end RadioAdmin.Compare
