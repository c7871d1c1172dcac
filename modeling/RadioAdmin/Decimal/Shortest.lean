/-!
# The shortest decimal that reads back

A positive double stands for the interval of reals that round to it. On the grids of
ever finer powers of ten, the first grid with a point in the interval next to the value
gives the digits; of two such points the nearer is taken, and of two equally near ones
the even. All comparisons are exact comparisons of natural numbers.
-/
namespace RadioAdmin.Decimal

/-- The number significand * 2 ^ exponent. The gap below it is half the gap above it
when it is a power of two that is not among the smallest doubles. -/
structure Dyadic where
  significand : Nat
  exponent : Int
  narrowBelow : Bool
  deriving DecidableEq, Repr

/-- How many significands the bits of a double can store for each exponent. -/
def storedSize : Nat := 4503599627370496

/-- The magnitude of a finite double, from its bits. -/
def Dyadic.ofBits (bits : UInt64) : Dyadic :=
  let biased : Nat := bits.toNat / storedSize % 2048
  let stored : Nat := bits.toNat % storedSize
  if biased = 0 then ⟨stored, -1074, false⟩
  else ⟨storedSize + stored, Int.ofNat biased - 1075, stored = 0 && 1 < biased⟩

/-- The number digits * 10 ^ exponent. -/
structure Digits where
  digits : Nat
  exponent : Int
  deriving DecidableEq, Repr

/-- A grid of multiples of 10 ^ exponent set against quarters of the last place of a
number: `left` of the grid's counts equal `right` quarters. -/
structure Grid where
  left : Nat
  right : Nat

def Grid.of (x : Dyadic) (exponent : Int) : Grid :=
  let quarter := x.exponent - 2
  ⟨Nat.pow 10 exponent.toNat * Nat.pow 2 (-quarter).toNat,
    Nat.pow 2 quarter.toNat * Nat.pow 10 (-exponent).toNat⟩

/-- Whether a count on the grid rounds to the number. The ends of the interval belong to
it exactly when the significand is even. -/
def Grid.readsBack (grid : Grid) (x : Dyadic) (count : Nat) : Bool :=
  let low := (4 * x.significand - (if x.narrowBelow then 1 else 2)) * grid.right
  let high := (4 * x.significand + 2) * grid.right
  let point := count * grid.left
  if x.significand % 2 = 0 then low ≤ point && point ≤ high else low < point && point < high

/-- The point of the grid that is written for the number, if one beside it reads back. -/
def Grid.choose (grid : Grid) (x : Dyadic) : Option Nat :=
  let value := 4 * x.significand * grid.right
  let below := value / grid.left
  let above := below + 1
  match grid.readsBack x below, grid.readsBack x above with
  | false, false => none
  | true, false => some below
  | false, true => some above
  | true, true => match compare (2 * value) ((below + above) * grid.left) with
    | .lt => some below
    | .gt => some above
    | .eq => some (if below % 2 = 0 then below else above)

/-- The exact decimal value of a number. -/
def Dyadic.exact (x : Dyadic) : Digits :=
  if x.exponent < 0 then ⟨x.significand * Nat.pow 5 x.exponent.natAbs, x.exponent⟩
  else ⟨x.significand * Nat.pow 2 x.exponent.toNat, 0⟩

/-- The exponent of a power of ten above the number, by the length of its binary form. -/
def Dyadic.ceiling (x : Dyadic) : Int :=
  ((x.significand.log2 : Int) + 1 + x.exponent) * 30103 / 100000 + 1

/-- The shortest digits that read back to a positive number. Twenty grids hold the one
with seventeen digits; were none to serve, the exact value would be written. -/
def shortest (x : Dyadic) : Digits :=
  let found := (List.range 20).findSome? fun finer =>
    let exponent := x.ceiling - Int.ofNat finer
    ((Grid.of x exponent).choose x).map fun digits => (⟨digits, exponent⟩ : Digits)
  found.getD x.exact

end RadioAdmin.Decimal
