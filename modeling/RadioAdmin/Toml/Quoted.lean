import RadioAdmin.Encoding.Hex

/-!
# TOML text in quotes

Double quotes allow escapes, single quotes take every character as it is. Three quotes
span lines: a line end right after them is dropped, every other one is a newline, and one
or two quotes may stand before the three that close.
-/
namespace RadioAdmin.Toml

def isGap (c : Char) : Bool := c = ' ' || c = '\t'

/-- Every character but the controls below the blank, the tab excepted, and the delete. -/
def isPlain (c : Char) : Bool := c = '\t' || (0x20 ≤ c.toNat && c.toNat ≠ 0x7F)

/-- The text after the line end it begins with, if it begins with one. -/
def afterNewline? : List Char → Option (List Char)
  | '\n' :: rest => some rest
  | '\r' :: '\n' :: rest => some rest
  | _ => none

/-- The character of an escape of one letter. -/
def unescape? (c : Char) : Option Char :=
  match c with
  | '"' | '\\' => some c
  | 'b' => some '\x08'
  | 'f' => some '\x0c'
  | 'n' => some '\n'
  | 'r' => some '\r'
  | 't' => some '\t'
  | _ => none

/-- The character of a code point in hexadecimal. -/
def codePoint? (digits : List Char) : Option Char := do
  let values ← digits.mapM Hex.value?
  let code := values.foldl (fun n digit => 16 * n + digit) 0
  if code.isValidChar then return Char.ofNat code else none

/-- What quotes hold, and the text after them. -/
abbrev Quoted := Option (List Char × List Char)

/-- A character in front of what follows it. -/
def Quoted.push (c : Char) (follows : Quoted) : Quoted :=
  follows.map fun (chars, rest) => (c :: chars, rest)

/-- The text up to a double quote. -/
def readBasic : List Char → Quoted
  | '"' :: rest => some ([], rest)
  | '\\' :: 'u' :: a :: b :: c :: d :: rest =>
    (codePoint? [a, b, c, d]).bind fun meant => Quoted.push meant (readBasic rest)
  | '\\' :: 'U' :: a :: b :: c :: d :: e :: f :: g :: h :: rest =>
    (codePoint? [a, b, c, d, e, f, g, h]).bind fun meant => Quoted.push meant (readBasic rest)
  | '\\' :: letter :: rest =>
    (unescape? letter).bind fun meant => Quoted.push meant (readBasic rest)
  | c :: rest => if isPlain c && c ≠ '\\' then Quoted.push c (readBasic rest) else none
  | [] => none

/-- The text up to a single quote. -/
def readLiteral : List Char → Quoted
  | '\'' :: rest => some ([], rest)
  | c :: rest => if isPlain c then Quoted.push c (readLiteral rest) else none
  | [] => none

/-- Whether only gaps come before the next line end. -/
def endsLine (text : List Char) : Bool := (afterNewline? (text.dropWhile isGap)).isSome

/-- The text of several lines up to three double quotes. A backslash at the end of a line
joins it to the next character that is no gap. -/
def readBasicLines (joining : Bool) : List Char → Quoted
  | '"' :: '"' :: '"' :: '"' :: '"' :: rest => some (['"', '"'], rest)
  | '"' :: '"' :: '"' :: '"' :: rest => some (['"'], rest)
  | '"' :: '"' :: '"' :: rest => some ([], rest)
  | '\\' :: 'u' :: a :: b :: c :: d :: rest =>
    (codePoint? [a, b, c, d]).bind fun meant => Quoted.push meant (readBasicLines false rest)
  | '\\' :: 'U' :: a :: b :: c :: d :: e :: f :: g :: h :: rest =>
    (codePoint? [a, b, c, d, e, f, g, h]).bind fun meant =>
      Quoted.push meant (readBasicLines false rest)
  | '\\' :: letter :: rest =>
    if endsLine (letter :: rest) then readBasicLines true (letter :: rest)
    else (unescape? letter).bind fun meant => Quoted.push meant (readBasicLines false rest)
  | '\r' :: '\n' :: rest =>
    if joining then readBasicLines true rest else Quoted.push '\n' (readBasicLines false rest)
  | c :: rest =>
    if joining && (isGap c || c = '\n') then readBasicLines true rest
    else if (isPlain c || c = '\n') && c ≠ '\\' then Quoted.push c (readBasicLines false rest)
    else none
  | [] => none

/-- The text of several lines up to three single quotes. -/
def readLiteralLines : List Char → Quoted
  | '\'' :: '\'' :: '\'' :: '\'' :: '\'' :: rest => some (['\'', '\''], rest)
  | '\'' :: '\'' :: '\'' :: '\'' :: rest => some (['\''], rest)
  | '\'' :: '\'' :: '\'' :: rest => some ([], rest)
  | '\r' :: '\n' :: rest => Quoted.push '\n' (readLiteralLines rest)
  | c :: rest => if isPlain c || c = '\n' then Quoted.push c (readLiteralLines rest) else none
  | [] => none

/-- The quoted text that a text begins with. -/
def readQuoted : List Char → Quoted
  | '"' :: '"' :: '"' :: rest => readBasicLines false ((afterNewline? rest).getD rest)
  | '"' :: rest => readBasic rest
  | '\'' :: '\'' :: '\'' :: rest => readLiteralLines ((afterNewline? rest).getD rest)
  | '\'' :: rest => readLiteral rest
  | _ => none

end RadioAdmin.Toml
