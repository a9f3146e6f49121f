import MessageFlow.Double.Basic

/-! The shortest decimal that reads back to a double, and of several the one nearest to it. The decimals
    that read back fill the interval halfway to the two neighbours, ends included when the significand is
    even. Coarser and coarser decimal grids hold fewer of them, so the search goes from a grid too coarse
    to hold any to the first that does; only the two grid points around the value need a look. -/

namespace MessageFlow

-- Powers are those of core, whatever is imported beside.
attribute [local instance (high)] instPowNat

/-- `digits * 10 ^ exponent`. -/
structure Decimal where
  digits : Nat
  exponent : Int
deriving DecidableEq, Repr

namespace Double

/-- `a * 10 ^ i` against `b * 2 ^ j`. -/
def compareScaled (a : Nat) (i : Int) (b : Nat) (j : Int) : Ordering :=
  compare (a * 10 ^ i.toNat * 2 ^ (-j).toNat) (b * 2 ^ j.toNat * 10 ^ (-i).toNat)

/-- The decimal lies in the interval of values that round to `x`. The ends are counted in quarters of
    the unit of the significand. -/
def readsAs (d : Decimal) (x : Double) : Bool :=
  let low := 4 * x.significand - if x.narrowBelow then 1 else 2
  let high := 4 * x.significand + 2
  let fromLow := compareScaled d.digits d.exponent low (x.exponent - 2)
  let toHigh := compareScaled d.digits d.exponent high (x.exponent - 2)
  if x.significand % 2 = 0 then fromLow != .lt && toHigh != .gt else fromLow == .gt && toHigh == .lt

/-- The number of whole units `10 ^ grid` in the absolute value of `x`. -/
def wholeUnits (x : Double) (grid : Int) : Nat :=
  x.significand * 2 ^ x.exponent.toNat * 10 ^ (-grid).toNat / (10 ^ grid.toNat * 2 ^ (-x.exponent).toNat)

/-- The nearer of the two points of the grid around `x` that reads as `x`, the even one on a tie. -/
def onGrid? (x : Double) (grid : Int) : Option Decimal :=
  let below := x.wholeUnits grid
  let low : Decimal := ⟨below, grid⟩
  let high : Decimal := ⟨below + 1, grid⟩
  match readsAs low x, readsAs high x with
  | false, false => none
  | true, false => some low
  | false, true => some high
  | true, true =>
    match compareScaled (2 * below + 1) grid (2 * x.significand) x.exponent with
    | .gt => some low
    | .lt => some high
    | .eq => some (if below % 2 = 0 then low else high)

/-- A decimal exponent with `10 ^ exponent` above twice the absolute value of `x`. -/
def coarseGrid (x : Double) : Int :=
  ((x.significand.log2 : Int) + x.exponent) * 30103 / 100000 + 2

/-- The first hit on the grids from `grid` downwards. If `fuel` grids have none, the exact value. -/
def firstOnGrid (x : Double) (grid : Int) : Nat → Decimal
  | 0 =>
    if x.exponent < 0 then ⟨x.significand * 5 ^ (-x.exponent).toNat, x.exponent⟩
    else ⟨x.significand * 2 ^ x.exponent.toNat, 0⟩
  | fuel + 1 =>
    match x.onGrid? grid with
    | some d => d
    | none => x.firstOnGrid (grid - 1) fuel

/-- The shortest decimal that reads back to the absolute value of `x`. -/
def shortest (x : Double) : Decimal :=
  if x.isZero then ⟨0, 0⟩ else x.firstOnGrid x.coarseGrid 24

end Double
end MessageFlow
