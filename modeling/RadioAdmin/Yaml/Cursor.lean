/-!
# Places in a YAML text

The rest of a text together with the place where it begins. A line break is a newline, a
return, both together, a next line, or one of the two separators; all but the separators
read as a newline.
-/
namespace RadioAdmin.Yaml

def isBlank (c : Char) : Bool := c = ' ' || c = '\t'

def isBreak (c : Char) : Bool :=
  c = '\n' || c = '\r' || c = '\x85' || c = '\u2028' || c = '\u2029'

def isSpace (c : Char) : Bool := isBlank c || isBreak c

/-- The characters that may occur in a text at all. -/
def isAllowed (c : Char) : Bool :=
  let code := c.toNat
  c = '\t' || c = '\n' || c = '\r' || (0x20 ≤ code && code ≤ 0x7E) || code = 0x85 ||
    (0xA0 ≤ code && code ≤ 0xD7FF) || (0xE000 ≤ code && code ≤ 0xFFFD) || 0x10000 ≤ code

def isWordChar (c : Char) : Bool := c.isAlphanum || c = '_' || c = '-'

/-- Whether a text is at its end or goes on with a space. -/
def atSpace (text : List Char) : Bool := text.head?.all isSpace

/-- Whether a text is at its end or goes on with a break. -/
def atBreak (text : List Char) : Bool := text.head?.all isBreak

/-- The line breaks of a run of spaces, as they read. -/
def breaks : List Char → List Char
  | '\r' :: '\n' :: rest => '\n' :: breaks rest
  | c :: rest =>
    if c = '\u2028' || c = '\u2029' then c :: breaks rest
    else if isBreak c then '\n' :: breaks rest
    else breaks rest
  | [] => []

/-- What a run of spaces between words reads as. A newline in it becomes a blank, or is
dropped when further breaks follow; blanks beside breaks are dropped. -/
def fold (gap : List Char) : List Char :=
  match breaks gap with
  | [] => gap
  | ['\n'] => [' ']
  | '\n' :: others => others
  | all => all

structure Cursor where
  rest : List Char
  index : Nat
  line : Nat
  column : Nat

namespace Cursor

def start (text : List Char) : Cursor := ⟨text, 0, 0, 0⟩

/-- Go past a number of characters. A newline after a return ends the line of both. -/
def advance (cursor : Cursor) : Nat → Cursor
  | 0 => cursor
  | count + 1 => match cursor.rest with
    | [] => cursor
    | '\r' :: '\n' :: rest =>
      advance ⟨'\n' :: rest, cursor.index + 1, cursor.line, cursor.column + 1⟩ count
    | c :: rest =>
      if isBreak c then advance ⟨rest, cursor.index + 1, cursor.line + 1, 0⟩ count
      else advance ⟨rest, cursor.index + 1, cursor.line, cursor.column + 1⟩ count

/-- Go to the place where a later part of the text begins. -/
def reach (cursor : Cursor) (rest : List Char) : Cursor :=
  cursor.advance (cursor.rest.length - rest.length)

/-- Go past the characters of a kind. -/
def skip (cursor : Cursor) (kind : Char → Bool) : Cursor :=
  cursor.advance (cursor.rest.takeWhile kind).length

/-- Go past a comment, if one begins here. -/
def skipComment (cursor : Cursor) : Cursor :=
  if cursor.rest.head? == some '#' then cursor.skip (!isBreak ·) else cursor

/-- The line break that stands here, as it reads, and the place after it. -/
def lineBreak? (cursor : Cursor) : Option (Char × Cursor) :=
  match cursor.rest with
  | '\r' :: '\n' :: _ => some ('\n', cursor.advance 2)
  | c :: _ =>
    if c = '\u2028' || c = '\u2029' then some (c, cursor.advance 1)
    else if isBreak c then some ('\n', cursor.advance 1)
    else none
  | [] => none

/-- Go past blanks and a comment to the end of a line, and past the break. Anything else
before the end is an error. -/
def endLine? (cursor : Cursor) : Option Cursor :=
  let after := (cursor.skip isBlank).skipComment
  if atBreak after.rest then some ((after.lineBreak?.map Prod.snd).getD after) else none

/-- Whether the mark of the start or of the end of a document stands here. -/
def atMarker (cursor : Cursor) : Bool :=
  cursor.column == 0 && match cursor.rest with
    | '-' :: '-' :: '-' :: rest => atSpace rest
    | '.' :: '.' :: '.' :: rest => atSpace rest
    | _ => false

theorem rest_advance (cursor : Cursor) (count : Nat) :
    (cursor.advance count).rest = cursor.rest.drop count := by
  fun_induction advance cursor count <;> simp_all

theorem length_rest_advance_le (cursor : Cursor) (count : Nat) :
    (cursor.advance count).rest.length ≤ cursor.rest.length := by
  rw [rest_advance, List.length_drop]
  omega

/-- Going past a character shortens what is left. -/
theorem length_rest_advance_lt {cursor : Cursor} {count : Nat} (hrest : cursor.rest ≠ [])
    (hcount : count ≠ 0) : (cursor.advance count).rest.length < cursor.rest.length := by
  have := List.length_pos_iff.mpr hrest
  rw [rest_advance, List.length_drop]
  omega

theorem length_rest_skip_le (cursor : Cursor) (kind : Char → Bool) :
    (cursor.skip kind).rest.length ≤ cursor.rest.length :=
  length_rest_advance_le _ _

theorem length_rest_skipComment_le (cursor : Cursor) :
    cursor.skipComment.rest.length ≤ cursor.rest.length := by
  unfold skipComment
  split
  · exact length_rest_skip_le _ _
  · exact Nat.le_refl _

theorem length_rest_lineBreak?_lt {cursor next : Cursor} {c : Char}
    (h : cursor.lineBreak? = some (c, next)) : next.rest.length < cursor.rest.length := by
  unfold lineBreak? at h
  split at h
  · next hrest =>
    cases h
    exact length_rest_advance_lt (by simp [hrest]) (by decide)
  · next hrest =>
    have hne : cursor.rest ≠ [] := by simp [hrest]
    split at h
    · cases h
      exact length_rest_advance_lt hne (by decide)
    · split at h
      · cases h
        exact length_rest_advance_lt hne (by decide)
      · cases h
  · cases h

end Cursor

end RadioAdmin.Yaml
