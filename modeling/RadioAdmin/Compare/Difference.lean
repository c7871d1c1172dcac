import RadioAdmin.Value.Json

/-!
# Differences between configurations

One record says how one field of the expected configuration is not met by the actual
one, or which field the actual one has in addition. A list of them has a short report.
-/
namespace RadioAdmin

/-- The ways in which a field can differ. -/
inductive DifferenceKind where
  /-- Expected but absent. -/
  | missing
  /-- Present on both sides with other contents. -/
  | mismatch
  /-- A map or list on one side and another shape on the other. -/
  | typeMismatch
  /-- Present in the actual configuration alone. -/
  | extra
  deriving DecidableEq, Repr

def DifferenceKind.name : DifferenceKind → String
  | .missing => "missing"
  | .mismatch => "mismatch"
  | .typeMismatch => "type_mismatch"
  | .extra => "extra"

def DifferenceKind.all : List DifferenceKind := [.missing, .mismatch, .typeMismatch, .extra]

/-- A differing field with the values of the sides that have it. -/
structure Difference where
  field : String
  expected : Option Value
  actual : Option Value
  kind : DifferenceKind

namespace Difference

def missing (field : String) (expected : Value) : Difference :=
  ⟨field, some expected, none, .missing⟩

def mismatch (field : String) (expected actual : Value) : Difference :=
  ⟨field, some expected, some actual, .mismatch⟩

def typeMismatch (field : String) (expected actual : Value) : Difference :=
  ⟨field, some expected, some actual, .typeMismatch⟩

def extra (field : String) (actual : Value) : Difference := ⟨field, none, some actual, .extra⟩

/-- One line on a difference. A side without a value reads as null. -/
def describe (d : Difference) : String :=
  let expected := d.expected.getD .null
  let actual := d.actual.getD .null
  match d.kind with
  | .missing => d.field ++ ": missing (expected: " ++ expected.display ++ ")"
  | .extra => d.field ++ ": extra field (value: " ++ actual.display ++ ")"
  | .typeMismatch => d.field ++ ": type mismatch (expected: " ++ expected.kindName ++
      ", actual: " ++ actual.kindName ++ ")"
  | .mismatch => d.field ++ ": " ++ expected.display ++ " != " ++ actual.display

/-- The most differences that a report lists. -/
def reportLimit : Nat := 10

/-- A report on a list of differences: their number, the first of them a line each, and
how many more there are. -/
def report (differences : List Difference) : String :=
  if differences.isEmpty then "Configurations are identical"
  else
    let count := differences.length
    let lines := (toString count ++ " difference(s) found:") ::
      (differences.take reportLimit).map fun d => "  - " ++ d.describe
    let more := if reportLimit < count then
      ["  ... and " ++ toString (count - reportLimit) ++ " more"] else []
    "\n".intercalate (lines ++ more)

end Difference

end RadioAdmin
