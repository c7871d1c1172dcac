import RadioAdmin.Yaml.Cursor
import RadioAdmin.Yaml.Token
import RadioAdmin.Encoding.Hex

/-!
# YAML tags, anchors and directives

The tokens that begin with an exclamation mark, an ampersand, an asterisk or a percent
sign. Each reads to its end from a text and hands back what follows.
-/
namespace RadioAdmin.Yaml

abbrev Scan (α : Type) := List Char → Option (α × List Char)

def isUriChar (inBrackets : Bool) (c : Char) : Bool :=
  isWordChar c || ";/?:@&=+$.!~*'()".contains c || (inBrackets && ",[]".contains c)

/-- How many octets follow the first octet of a character. -/
def octetsAfter? (first : Nat) : Option Nat :=
  if first < 0x80 then some 0
  else if 0xC0 ≤ first ∧ first < 0xE0 then some 1
  else if 0xE0 ≤ first ∧ first < 0xF0 then some 2
  else if 0xF0 ≤ first ∧ first < 0xF8 then some 3
  else none

/-- How many octets are still due after an octet, when some were due before it. -/
def octetsDue? (due octet : Nat) : Option Nat :=
  if due = 0 then octetsAfter? octet
  else if 0x80 ≤ octet ∧ octet < 0xC0 then some (due - 1)
  else none

/-- The characters of an identifier, with octets of its escapes that may still be due. Only
octets that are characters themselves matter for telling tags apart. -/
def scanUri (inBrackets : Bool) (due : Nat) : Scan (List Char)
  | '%' :: a :: b :: rest => do
    let octet := 16 * (← Hex.value? a) + (← Hex.value? b)
    let (chars, rest) ← scanUri inBrackets (← octetsDue? due octet) rest
    return (Char.ofNat octet :: chars, rest)
  | c :: rest =>
    if 0 < due || c = '%' then none
    else if isUriChar inBrackets c then do
      let (chars, rest) ← scanUri inBrackets 0 rest
      return (c :: chars, rest)
    else some ([], c :: rest)
  | [] => if 0 < due then none else some ([], [])

/-- An identifier that is not empty. -/
def scanUri1 (inBrackets : Bool) : Scan (List Char) := fun text => do
  let (chars, rest) ← scanUri inBrackets 0 text
  if chars.isEmpty then none else return (chars, rest)

/-- A shorthand: an exclamation mark and a word, with a second mark if there is one. -/
def scanHandle : Scan (List Char)
  | '!' :: rest =>
    let word := rest.takeWhile isWordChar
    match rest.dropWhile isWordChar with
    | '!' :: rest => some ('!' :: word ++ ['!'], rest)
    | rest => some ('!' :: word, rest)
  | _ => none

def isShorthand (handle : List Char) : Bool :=
  2 ≤ handle.length && handle.getLast? == some '!'

/-- A tag in angles, with a shorthand, or local. The mark alone is a tag too. -/
def scanTagBody : Scan Token
  | '!' :: '<' :: rest => do
    let (uri, rest) ← scanUri1 true rest
    match rest with
    | '>' :: rest => return (.tag "" (String.ofList uri), rest)
    | _ => none
  | text => do
    let (handle, rest) ← scanHandle text
    if isShorthand handle then
      let (suffix, rest) ← scanUri1 false rest
      return (.tag (String.ofList handle) (String.ofList suffix), rest)
    else
      let (more, rest) ← scanUri false 0 rest
      let suffix := handle.drop 1 ++ more
      if suffix.isEmpty then return (.tag "" "!", rest)
      else return (.tag "!" (String.ofList suffix), rest)

/-- A tag with a space, or in a flow collection a comma, after it. -/
def scanTag (inFlow : Bool) : Scan Token := fun text => do
  let (tag, rest) ← scanTagBody text
  if atSpace rest || (inFlow && rest.head? == some ',') then return (tag, rest) else none

/-- The name of an anchor or an alias, after the mark. -/
def scanName (token : String → Token) : Scan Token := fun text =>
  let name := (text.drop 1).takeWhile isWordChar
  let rest := (text.drop 1).dropWhile isWordChar
  if !name.isEmpty && (atSpace rest || rest.head?.any fun c => "?:,]\x7d%@`".contains c) then
    some (token (String.ofList name), rest)
  else none

/-- A number of at most nine digits. -/
def scanNumber : Scan Nat := fun text =>
  let digits := text.takeWhile Char.isDigit
  if digits.isEmpty || 9 < digits.length then none
  else
    let number := digits.foldl (fun n c => 10 * n + (c.toNat - '0'.toNat)) 0
    some (number, text.dropWhile Char.isDigit)

def scanVersion : Scan Token := fun text => do
  let (major, rest) ← scanNumber (text.dropWhile isBlank)
  match rest with
  | '.' :: rest =>
    let (minor, rest) ← scanNumber rest
    return (.version major minor, rest)
  | _ => none

def scanShorthand : Scan Token := fun text => do
  let (handle, rest) ← scanHandle (text.dropWhile isBlank)
  if !isShorthand handle && handle ≠ ['!'] then none
  if !rest.head?.any isBlank then none
  let (beginning, rest) ← scanUri1 true (rest.dropWhile isBlank)
  if atSpace rest then return (.shorthand (String.ofList handle) (String.ofList beginning), rest)
  else none

/-- A directive, without the rest of its line. -/
def scanDirective : Scan Token := fun text => do
  let name := (text.drop 1).takeWhile isWordChar
  let rest := (text.drop 1).dropWhile isWordChar
  if !atSpace rest then none
  if name = "YAML".toList then scanVersion rest
  else if name = "TAG".toList then scanShorthand rest
  else none

end RadioAdmin.Yaml
