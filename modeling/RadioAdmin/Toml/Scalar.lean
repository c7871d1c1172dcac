import RadioAdmin.Toml.Basic
import RadioAdmin.Toml.Quoted
import RadioAdmin.Decimal.Numeral
import RadioAdmin.Time.Instant

/-!
# TOML scalars without quotes

Flags, numbers, dates and times reach up to the next gap, line end, comment or punctuation
of an array or table. Integers fit a signed word of 64 bits and have no leading zeros;
underscores may stand between digits.
-/
namespace RadioAdmin.Toml

/-- The digits of a run in which single underscores may stand between digits. -/
def digits? (isDigit : Char → Bool) : List Char → Option (List Char)
  | [] => none
  | [c] => if isDigit c then some [c] else none
  | c :: '_' :: rest => if isDigit c then (digits? isDigit rest).map (c :: ·) else none
  | c :: rest => if isDigit c then (digits? isDigit rest).map (c :: ·) else none

/-- The number of a run of digits. -/
def inRadix? (radix : Nat) (text : List Char) : Option Nat := do
  let isDigit (c : Char) : Bool := (Hex.value? c).any (· < radix)
  let values ← (← digits? isDigit text).mapM Hex.value?
  return values.foldl (fun n digit => radix * n + digit) 0

/-- Decimal digits, of which the first is no zero unless it is the only one. -/
def whole? (text : List Char) : Option Nat :=
  if text.head? = some '0' ∧ text ≠ ['0'] then none else inRadix? 10 text

def fitsWord (number : Int) : Bool :=
  Int64.minValue.toInt ≤ number && number ≤ Int64.maxValue.toInt

def integer? (text : List Char) : Option Int :=
  let number : Option Int := match text with
    | '0' :: 'x' :: rest => (inRadix? 16 rest).map Int.ofNat
    | '0' :: 'o' :: rest => (inRadix? 8 rest).map Int.ofNat
    | '0' :: 'b' :: rest => (inRadix? 2 rest).map Int.ofNat
    | _ =>
      let (negative, body) := Decimal.splitSign text
      (whole? body).map fun size => if negative then -(size : Int) else size
  number.filter fitsWord

/-- An exponent with its mark. -/
def isExponent : List Char → Bool
  | mark :: rest => (mark = 'e' || mark = 'E') && (inRadix? 10 (Decimal.splitSign rest).2).isSome
  | [] => false

/-- A whole part and a fraction, an exponent or both. -/
def isDecimal (body : List Char) : Bool :=
  let isPart (c : Char) : Bool := c.isDigit || c = '_'
  let rest := body.dropWhile isPart
  (whole? (body.takeWhile isPart)).isSome &&
    match rest with
    | '.' :: more =>
      let tail := more.dropWhile isPart
      (inRadix? 10 (more.takeWhile isPart)).isSome && (tail.isEmpty || isExponent tail)
    | _ => isExponent rest

/-- A double by its decimals or by name. Decimals above the range are an error. -/
def float? (text : List Char) : Option Float :=
  let (negative, body) := Decimal.splitSign text
  if body = ['i', 'n', 'f'] then some (if negative then -Decimal.infinity else Decimal.infinity)
  else if body = ['n', 'a', 'n'] then some (0.0 / 0.0)
  else if isDecimal body then
    ((Decimal.readNumeral (text.filter (· ≠ '_'))).map Decimal.Numeral.toFloat).filter fun number =>
      !(number == Decimal.infinity)
  else none

/-- A number of exactly so many digits in a range. -/
def readField (count low high : Nat) (text : List Char) : Option (Nat × List Char) :=
  let digits := text.take count
  let number := Decimal.ofDigits digits
  if digits.length = count ∧ digits.all Char.isDigit ∧ low ≤ number ∧ number ≤ high then
    some (number, text.drop count)
  else none

/-- The text after a character that has to come first. -/
def expect (c : Char) : List Char → Option (List Char)
  | first :: rest => if first = c then some rest else none
  | [] => none

/-- The text after a date of the calendar. -/
def afterDate? (text : List Char) : Option (List Char) := do
  let (year, rest) ← readField 4 0 9999 text
  let (month, rest) ← readField 2 1 12 (← expect '-' rest)
  let (day, rest) ← readField 2 1 31 (← expect '-' rest)
  if (⟨year, month, day⟩ : Instant.Date).isValid then return rest else none

/-- The text after a time of the day, with or without decimals of the second. -/
def afterTime? (text : List Char) : Option (List Char) := do
  let (_, rest) ← readField 2 0 23 text
  let (_, rest) ← readField 2 0 59 (← expect ':' rest)
  let (_, rest) ← readField 2 0 60 (← expect ':' rest)
  match rest with
  | '.' :: more =>
    if (more.takeWhile Char.isDigit).isEmpty then none else return more.dropWhile Char.isDigit
  | _ => return rest

/-- An offset from universal time, or none at all. -/
def isOffset : List Char → Bool
  | [] | ['Z'] | ['z'] => true
  | sign :: rest =>
    (sign = '+' || sign = '-') &&
      ((readField 2 0 23 rest).bind fun (_, rest) =>
        (expect ':' rest).bind (readField 2 0 59)).any fun (_, rest) => rest.isEmpty

def isDate (text : List Char) : Bool := (afterDate? text).any List.isEmpty

/-- A time of the day with an optional offset, as it follows a date. -/
def isTimeOfDate (text : List Char) : Bool := (afterTime? text).any isOffset

/-- A date, a time, or both with a letter between them. -/
def isMoment (text : List Char) : Bool :=
  (afterTime? text).any List.isEmpty ||
    (afterDate? text).any fun
      | [] => true
      | mark :: rest => (mark = 'T' || mark = 't') && isTimeOfDate rest

/-- The scalar that a word of a document gives. -/
def ofWord? (word : List Char) : Option Toml :=
  if word = ['t', 'r', 'u', 'e'] then some (.bool true)
  else if word = ['f', 'a', 'l', 's', 'e'] then some (.bool false)
  else if isMoment word then some (.moment (String.ofList word))
  else match integer? word with
    | some number => some (.integer number)
    | none => (float? word).map .float

def endsWord (c : Char) : Bool := isGap c || "\n\r#,]\x7d".contains c

/-- The scalar that a text begins with. After a date a single blank may come before the time
of the day. -/
def readScalar (text : List Char) : Option (Toml × List Char) :=
  let word := text.takeWhile (!endsWord ·)
  let rest := text.dropWhile (!endsWord ·)
  let time := (rest.drop 1).takeWhile (!endsWord ·)
  if isDate word && rest.head? == some ' ' && isTimeOfDate time then
    some (.moment (String.ofList (word ++ ' ' :: time)), rest.drop (time.length + 1))
  else (ofWord? word).map fun content => (content, rest)

end RadioAdmin.Toml
