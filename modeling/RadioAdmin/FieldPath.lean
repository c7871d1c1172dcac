/-!
# Dotted field paths

A position in a nested configuration is named by its keys joined with dots. Keys may
themselves hold dots, so the last segment is a property of the text alone.
-/
namespace RadioAdmin.FieldPath

/-- The path of a key below a path; the empty path stands for the root. -/
def child (path key : String) : String :=
  if path.isEmpty then key else path ++ "." ++ key

/-- The text after the last dot, which is the whole text when there is none. -/
def leaf (path : String) : String :=
  String.ofList (path.toList.reverse.takeWhile (· ≠ '.')).reverse

theorem child_root (key : String) : child "" key = key := rfl

end RadioAdmin.FieldPath
