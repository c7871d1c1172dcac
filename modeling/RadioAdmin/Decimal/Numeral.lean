/-!
# Decimal numerals

A sign, a natural number of digits and a power of ten, as they are written in text,
and the double nearest to them. The reader takes digits before or after a point, but
not none at all, and an exponent with at least one digit.
-/
namespace RadioAdmin.Decimal

/-- The number of a run of decimal digits. -/
def ofDigits (digits : List Char) : Nat :=
  digits.foldl (fun n c => 10 * n + (c.toNat - '0'.toNat)) 0

def infinity : Float := 1.0 / 0.0

/-- The value digits * 10 ^ exponent with a sign; zero keeps its sign too. -/
structure Numeral where
  negative : Bool
  digits : Nat
  exponent : Int
  deriving DecidableEq, Repr

/-- The double nearest to a numeral. Magnitudes past either end of the range are settled
by the place of the leading digit, so that no large power is ever computed. -/
def Numeral.toFloat (n : Numeral) : Float :=
  let leading : Int := (Nat.toDigits 10 n.digits).length + n.exponent
  let size : Float :=
    if n.digits = 0 ∨ leading < -324 then 0.0
    else if 310 < leading then infinity
    else Float.ofScientific n.digits (n.exponent < 0) n.exponent.natAbs
  if n.negative then -size else size

/-- A leading sign and what follows it. -/
def splitSign : List Char → Bool × List Char
  | '-' :: rest => (true, rest)
  | '+' :: rest => (false, rest)
  | text => (false, text)

/-- The exponent mark with its digits, or nothing at all. -/
def readExponent : List Char → Option Int
  | [] => some 0
  | mark :: rest =>
    let (negative, digits) := splitSign rest
    if (mark = 'e' ∨ mark = 'E') ∧ digits ≠ [] ∧ digits.all Char.isDigit then
      some (if negative then -(ofDigits digits : Int) else ofDigits digits)
    else none

/-- The numeral that is the whole text. -/
def readNumeral (text : List Char) : Option Numeral :=
  let (negative, body) := splitSign text
  let whole := body.takeWhile Char.isDigit
  let afterWhole := body.dropWhile Char.isDigit
  let (fraction, tail) := match afterWhole with
    | '.' :: rest => (rest.takeWhile Char.isDigit, rest.dropWhile Char.isDigit)
    | _ => ([], afterWhole)
  if whole.isEmpty && fraction.isEmpty then none
  else (readExponent tail).map fun exponent =>
    ⟨negative, ofDigits (whole ++ fraction), exponent - fraction.length⟩

/-- The double that is the whole text: a numeral, or a signed name of infinity or of no
number, in any mixture of cases. -/
def readFloat (text : List Char) : Option Float :=
  match readNumeral text with
  | some n => some n.toFloat
  | none =>
    let (negative, body) := splitSign text
    let name := String.ofList (body.map Char.toLower)
    if name = "inf" ∨ name = "infinity" then some (if negative then -infinity else infinity)
    else if name = "nan" then some (0.0 / 0.0)
    else none

end RadioAdmin.Decimal
