import RadioAdmin.Time.Instant
import RadioAdmin.Text.Blank

/-!
# Instants as RFC 3339 text

Instants are written in universal time with the mark Z and with as few of 0, 3, 6 or 9
decimals as hold them. Reading is more lenient: blanks may stand between the parts,
numbers may be short, and the offset may be any number of hours and minutes below a day.
-/
namespace RadioAdmin.Instant

open Text (trimStart isBlank)

/-- A number of at least one and at most `most` digits, and the text after it. -/
def readNumber (most : Nat) (text : List Char) : Option (Nat × List Char) :=
  let digits := (text.take most).takeWhile Char.isDigit
  if digits.isEmpty then none
  else some (digits.foldl (fun n c => 10 * n + (c.toNat - '0'.toNat)) 0, text.drop digits.length)

/-- A part of a date or time: blanks and a number in a range. -/
def readPart (most low high : Nat) (text : List Char) : Option (Nat × List Char) := do
  let (number, rest) ← readNumber most (trimStart text)
  if low ≤ number && number ≤ high then return (number, rest) else none

/-- A mark with blanks before it. -/
def readMark (mark : Char) (text : List Char) : Option (List Char) :=
  match trimStart text with
  | c :: rest => if c = mark then some rest else none
  | [] => none

/-- A year has up to four digits, or a sign and any number of them. -/
def readYear (text : List Char) : Option (Int × List Char) :=
  match trimStart text with
  | '-' :: rest => (readNumber rest.length rest).map fun (number, rest) => (-(number : Int), rest)
  | '+' :: rest => (readNumber rest.length rest).map fun (number, rest) => ((number : Int), rest)
  | text => (readNumber 4 text).map fun (number, rest) => ((number : Int), rest)

/-- Billionths of a second after a point; digits past the ninth are dropped. -/
def readFraction : List Char → Option (Nat × List Char)
  | '.' :: rest => do
    let (number, _) ← readNumber 9 rest
    let digits := rest.takeWhile Char.isDigit
    return (number * Nat.pow 10 (9 - min 9 digits.length), rest.drop digits.length)
  | text => some (0, text)

private def twoDigits : List Char → Option (Nat × List Char)
  | a :: b :: rest =>
    if a.isDigit && b.isDigit then
      some (10 * (a.toNat - '0'.toNat) + (b.toNat - '0'.toNat), rest)
    else none
  | _ => none

/-- Hours and minutes of an offset, in seconds. -/
private def readOffsetSize (text : List Char) : Option (Int × List Char) := do
  let (hours, rest) ← twoDigits text
  let (minutes, rest) ← twoDigits (rest.dropWhile fun c => c = ':' || isBlank c)
  if minutes < 60 && hours < 24 then return (3600 * hours + 60 * minutes, rest) else none

/-- The seconds by which local time is ahead of universal time. -/
def readOffset (text : List Char) : Option (Int × List Char) :=
  match text with
  | 'Z' :: rest | 'z' :: rest => some (0, rest)
  | '+' :: rest => readOffsetSize rest
  | '-' :: rest | '\u2212' :: rest => (readOffsetSize rest).map fun (size, rest) => (-size, rest)
  | a :: b :: c :: rest =>
    if String.ofList ([a, b, c].map Char.toLower) = "utc" then some (0, rest) else none
  | _ => none

/-- The instant that is the whole text. -/
def parse (text : String) : Option Instant := do
  let (year, rest) ← readYear text.toList
  let rest ← readMark '-' rest
  let (month, rest) ← readPart 2 1 12 rest
  let rest ← readMark '-' rest
  let (day, rest) ← readPart 2 1 31 rest
  let rest ← match rest with
    | 'T' :: rest | 't' :: rest | ' ' :: rest => some rest
    | _ => none
  let (hour, rest) ← readPart 2 0 23 rest
  let rest ← readMark ':' rest
  let (minute, rest) ← readPart 2 0 59 rest
  let rest ← readMark ':' rest
  let (second, rest) ← readPart 2 0 60 rest
  let (nanos, rest) ← readFraction rest
  let (offset, rest) ← readOffset (trimStart rest)
  if !(trimStart rest).isEmpty then none
  let date : Date := ⟨year, month, day⟩
  if !date.isValid then none
  let leap := second = 60
  let seconds : Int := date.toDays * secondsPerDay + 3600 * hour + 60 * minute +
    (if leap then 59 else second) - offset
  let instant : Instant := ⟨seconds, if leap then nanos + nanosPerSecond else nanos⟩
  if instant.isInRange then return instant else none

private def padded (width n : Nat) : String :=
  let digits := Nat.toDigits 10 n
  String.ofList (List.replicate (width - digits.length) '0' ++ digits)

/-- A year outside four digits has a sign. -/
def printYear (year : Int) : String :=
  if 0 ≤ year ∧ year ≤ 9999 then padded 4 year.toNat
  else (if year < 0 then "-" else "+") ++ padded 4 year.natAbs

def printFraction (nanos : Nat) : String :=
  if nanos = 0 then ""
  else if nanos % 1000000 = 0 then "." ++ padded 3 (nanos / 1000000)
  else if nanos % 1000 = 0 then "." ++ padded 6 (nanos / 1000)
  else "." ++ padded 9 nanos

def print (instant : Instant) : String :=
  let days := instant.seconds / secondsPerDay
  let inDay := (instant.seconds % secondsPerDay).toNat
  let date := Date.ofDays days
  printYear date.year ++ "-" ++ padded 2 date.month ++ "-" ++ padded 2 date.day ++ "T" ++
    padded 2 (inDay / 3600) ++ ":" ++ padded 2 (inDay / 60 % 60) ++ ":" ++
    padded 2 (inDay % 60 + instant.nanos / nanosPerSecond) ++
    printFraction (instant.nanos % nanosPerSecond) ++ "Z"

end RadioAdmin.Instant
