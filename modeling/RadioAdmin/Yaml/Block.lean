import RadioAdmin.Yaml.Cursor

/-!
# YAML text in blocks

An indented block of lines after a header. A literal block keeps its line breaks; a folded
one joins lines that do not begin with a blank. The header says what becomes of the breaks
at the end, and may give the indentation, which the first line sets otherwise.
-/
namespace RadioAdmin.Yaml

/-- What becomes of the line breaks at the end of a block. -/
inductive Chomping where
  | strip
  | clip
  | keep
  deriving DecidableEq, Repr

def chomping? : List Char → Option (Chomping × List Char)
  | '+' :: rest => some (.keep, rest)
  | '-' :: rest => some (.strip, rest)
  | _ => none

/-- A digit that gives the indentation of a block; zero is an error. -/
def indentation : List Char → Option (Nat × List Char)
  | c :: rest =>
    if c = '0' then none
    else if c.isDigit then some (c.toNat - '0'.toNat, rest)
    else some (0, c :: rest)
  | [] => some (0, [])

/-- The chomping and the given indentation of a header, in either order. -/
def blockHeader (text : List Char) : Option (Chomping × Nat × List Char) :=
  match chomping? text with
  | some (chomping, rest) => (indentation rest).map fun (width, rest) => (chomping, width, rest)
  | none => (indentation text).map fun (width, rest) =>
    match (if 0 < width then chomping? rest else none) with
    | some (chomping, rest) => (chomping, width, rest)
    | none => (.clip, width, rest)

/-- The breaks of empty lines, the greatest indentation among them, and the start of the
line after them. An unknown indentation is zero. -/
structure EmptyLines where
  breaks : List Char
  widest : Nat
  cursor : Cursor

/-- Go past empty lines and the indentation after them. A tab in it is an error. -/
def emptyLines (indent : Nat) (cursor : Cursor) : Option EmptyLines :=
  let spaces := (cursor.rest.takeWhile (· = ' ')).length
  let start := cursor.advance (if indent = 0 then spaces else min spaces (indent - cursor.column))
  if (indent = 0 || start.column < indent) && start.rest.head? == some '\t' then none
  else match _ : start.lineBreak? with
    | none => some ⟨[], start.column, start⟩
    | some (lineBreak, next) => (emptyLines indent next).map fun more =>
      ⟨lineBreak :: more.breaks, max start.column more.widest, more.cursor⟩
termination_by cursor.rest.length
decreasing_by
  rename_i h
  exact Nat.lt_of_lt_of_le (Cursor.length_rest_lineBreak?_lt h)
    (Cursor.length_rest_advance_le cursor _)

theorem length_rest_emptyLines_le {indent : Nat} {cursor : Cursor} {empty : EmptyLines}
    (h : emptyLines indent cursor = some empty) :
    empty.cursor.rest.length ≤ cursor.rest.length := by
  fun_induction emptyLines indent cursor generalizing empty with
  | case1 => cases h
  | case2 cursor =>
    cases h
    exact Cursor.length_rest_advance_le cursor _
  | case3 cursor _ _ _ _ next hbreak =>
    rename_i ih
    obtain ⟨more, hmore, rfl⟩ := Option.map_eq_some_iff.mp h
    have hnext : next.rest.length < cursor.rest.length := Nat.lt_of_lt_of_le
      (Cursor.length_rest_lineBreak?_lt hbreak) (Cursor.length_rest_advance_le cursor _)
    have hmore := ih hmore
    exact Nat.le_trans hmore (Nat.le_of_lt hnext)

/-- The lines of a block, and the breaks after the last of them. -/
structure BlockText where
  text : List Char
  lastBreak : List Char
  furtherBreaks : List Char
  cursor : Cursor

/-- The lines from here on, after a line break and breaks of empty lines. A line that no
break follows is the last one. -/
def blockLines (literal : Bool) (indent : Nat) (lastBreak furtherBreaks : List Char)
    (afterBlank : Bool) (cursor : Cursor) : Option BlockText :=
  if cursor.column ≠ indent || cursor.rest.isEmpty then
    some ⟨[], lastBreak, furtherBreaks, cursor⟩
  else
    let blank := cursor.rest.head?.any isBlank
    let joint := if !literal && lastBreak = ['\n'] && !afterBlank && !blank then
        if furtherBreaks.isEmpty then [' '] else []
      else lastBreak
    let line := cursor.rest.takeWhile (!isBreak ·)
    let ending := cursor.advance line.length
    let text := joint ++ furtherBreaks ++ line
    match _ : ending.lineBreak? with
    | none => some ⟨text, [], [], ending⟩
    | some (lineBreak, next) =>
      match _ : emptyLines indent next with
      | none => none
      | some empty =>
        (blockLines literal indent [lineBreak] empty.breaks blank empty.cursor).map fun more =>
          { more with text := text ++ more.text }
termination_by cursor.rest.length
decreasing_by
  rename_i hbreak hempty
  exact Nat.lt_of_le_of_lt (length_rest_emptyLines_le hempty) (Nat.lt_of_lt_of_le
    (Cursor.length_rest_lineBreak?_lt hbreak) (Cursor.length_rest_advance_le cursor _))

/-- The text of the block whose header begins here, inside a block with its contents at
least at a column. -/
def readBlock (literal : Bool) (least : Nat) (cursor : Cursor) : Option (List Char × Cursor) := do
  let (chomping, width, rest) ← blockHeader (cursor.rest.drop 1)
  let start ← (cursor.reach rest).endLine?
  let given := if width = 0 then 0 else (least - 1) + width
  let empty ← emptyLines given start
  let indent := if given = 0 then max empty.widest (max least 1) else given
  let block ← blockLines literal indent [] empty.breaks false empty.cursor
  let tail := match chomping with
    | .strip => []
    | .clip => block.lastBreak
    | .keep => block.lastBreak ++ block.furtherBreaks
  return (block.text ++ tail, block.cursor)

end RadioAdmin.Yaml
