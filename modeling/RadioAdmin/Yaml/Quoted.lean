import RadioAdmin.Yaml.Cursor
import RadioAdmin.Encoding.Hex

/-!
# YAML text in quotes

In single quotes a quote is written twice and all else stands for itself; double quotes
have escapes, also for a line break. Runs of spaces are folded, and no line may begin with
the mark of a document.
-/
namespace RadioAdmin.Yaml

/-- The characters up to a space or the closing quote, how much of the text they take up, and
whether an escaped line break ends them. -/
structure QuotedRun where
  chars : List Char
  width : Nat
  joined : Bool

/-- Nothing before a space, a quote or the end. -/
def QuotedRun.empty : QuotedRun := ⟨[], 0, false⟩

def QuotedRun.push (c : Char) (width : Nat) (run : Option QuotedRun) : Option QuotedRun :=
  run.map fun run => { run with chars := c :: run.chars, width := width + run.width }

def singleRun : List Char → Option QuotedRun
  | '\'' :: '\'' :: rest => QuotedRun.push '\'' 2 (singleRun rest)
  | c :: rest =>
    if c = '\'' || isSpace c then some QuotedRun.empty else QuotedRun.push c 1 (singleRun rest)
  | [] => some QuotedRun.empty

/-- The character of an escape of one letter. -/
def unescape? (c : Char) : Option Char :=
  match c with
  | '0' => some '\x00'
  | 'a' => some '\x07'
  | 'b' => some '\x08'
  | 't' | '\t' => some '\t'
  | 'n' => some '\n'
  | 'v' => some '\x0b'
  | 'f' => some '\x0c'
  | 'r' => some '\r'
  | 'e' => some '\x1b'
  | ' ' | '"' | '/' | '\\' => some c
  | 'N' => some '\x85'
  | '_' => some '\xa0'
  | 'L' => some '\u2028'
  | 'P' => some '\u2029'
  | _ => none

/-- The character of a code point in hexadecimal. -/
def codePoint? (digits : List Char) : Option Char := do
  let values ← digits.mapM Hex.value?
  let code := values.foldl (fun n digit => 16 * n + digit) 0
  if code.isValidChar then return Char.ofNat code else none

def doubleRun : List Char → Option QuotedRun
  | '\\' :: '\r' :: '\n' :: _ => some ⟨[], 3, true⟩
  | '\\' :: 'x' :: a :: b :: rest =>
    (codePoint? [a, b]).bind fun meant => QuotedRun.push meant 4 (doubleRun rest)
  | '\\' :: 'u' :: a :: b :: c :: d :: rest =>
    (codePoint? [a, b, c, d]).bind fun meant => QuotedRun.push meant 6 (doubleRun rest)
  | '\\' :: 'U' :: a :: b :: c :: d :: e :: f :: g :: h :: rest =>
    (codePoint? [a, b, c, d, e, f, g, h]).bind fun meant => QuotedRun.push meant 10 (doubleRun rest)
  | '\\' :: c :: rest =>
    if isBreak c then some ⟨[], 2, true⟩
    else (unescape? c).bind fun meant => QuotedRun.push meant 2 (doubleRun rest)
  | c :: rest =>
    if c = '"' || isSpace c then some QuotedRun.empty
    else if c = '\\' then none
    else QuotedRun.push c 1 (doubleRun rest)
  | [] => some QuotedRun.empty

/-- The text up to a closing quote. Where neither a run nor a gap begins and no quote stands,
the text has no end. -/
def quotedText (run : List Char → Option QuotedRun) (quote : Char) (cursor : Cursor) :
    Option (List Char × Cursor) := do
  if cursor.atMarker then none
  let part ← run cursor.rest
  let after := cursor.advance part.width
  if after.rest.head? == some quote then return (part.chars, after.advance 1)
  let gap := after.rest.takeWhile isSpace
  if part.width + gap.length = 0 || cursor.rest = [] then none
  else
    let (more, last) ← quotedText run quote (cursor.advance (part.width + gap.length))
    return (part.chars ++ (if part.joined then breaks gap else fold gap) ++ more, last)
termination_by cursor.rest.length
decreasing_by
  rename_i hnext
  simp only [Bool.or_eq_true, decide_eq_true_eq, not_or] at hnext
  exact Cursor.length_rest_advance_lt hnext.2 hnext.1

/-- The text whose opening quote stands here. -/
def readQuoted (cursor : Cursor) : Option (List Char × Cursor) :=
  match cursor.rest.head? with
  | some '\'' => quotedText singleRun '\'' (cursor.advance 1)
  | some '"' => quotedText doubleRun '"' (cursor.advance 1)
  | _ => none

end RadioAdmin.Yaml
