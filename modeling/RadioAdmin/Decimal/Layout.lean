import RadioAdmin.Decimal.Shortest

/-!
# How a decimal is laid out

Digits and a power of ten become text either positionally or with an exponent. A layout
records the decisions of one written format.
-/
namespace RadioAdmin.Decimal

/-- The decisions of a format for finite doubles. -/
structure Layout where
  /-- Least exponent of the leading digit that is written positionally. -/
  plainFrom : Int
  /-- Least larger exponent that is not. -/
  plainBelow : Int
  /-- Written after a positional number that has no other fraction. -/
  wholeMark : String
  /-- Written before the exponent of a number of at least one. -/
  upMark : String
  /-- Written before the exponent of a number below one. -/
  downMark : String

private def zeros (count : Nat) : List Char := List.replicate count '0'

/-- The text of a positive number. -/
def Layout.positive (layout : Layout) (x : Digits) : String :=
  let digits := Nat.toDigits 10 x.digits
  let leading : Int := digits.length - 1 + x.exponent
  if layout.plainFrom ≤ leading ∧ leading < layout.plainBelow then
    if 0 ≤ x.exponent then
      String.ofList (digits ++ zeros x.exponent.toNat) ++ layout.wholeMark
    else if 0 ≤ leading then
      let whole := leading.toNat + 1
      String.ofList (digits.take whole) ++ "." ++ String.ofList (digits.drop whole)
    else "0." ++ String.ofList (zeros (-leading - 1).toNat ++ digits)
  else
    let fraction := digits.drop 1
    String.ofList (digits.take 1) ++
      (if fraction.isEmpty then "" else "." ++ String.ofList fraction) ++
      (if leading < 0 then layout.downMark else layout.upMark) ++ toString leading.natAbs

/-- The text of a finite double, with a sign when its sign bit is set. -/
def Layout.write (layout : Layout) (x : Float) : String :=
  let bits := x.toBits
  let size := Dyadic.ofBits bits
  (if UInt64.size ≤ 2 * bits.toNat then "-" else "") ++
    (if size.significand = 0 then "0" ++ layout.wholeMark else layout.positive (shortest size))

end RadioAdmin.Decimal
