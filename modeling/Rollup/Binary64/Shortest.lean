import Rollup.Binary64.Basic
import Rollup.Text.Digits

namespace Rollup.Binary64

def compareDecimal (digits : Nat) (exponent : Int) (halves : Nat) : Ordering :=
  compare (2 * digits * tenTo exponent.toNat * unitsPerOne) (halves * tenTo (-exponent).toNat)

/-- Whether a decimal rounds to the magnitude at `rank`: it lies between the midpoints to the two
neighbours, or on one of them when the rank is even. -/
def readsBack (rank digits : Nat) (exponent : Int) : Bool :=
  let low := compareDecimal digits exponent (units (rank - 1) + units rank)
  let high := compareDecimal digits exponent (units rank + units (rank + 1))
  if rank % 2 = 0 then low != .lt && high != .gt else low == .gt && high == .lt

def multiples (rank : Nat) (exponent : Int) : Nat :=
  units rank * tenTo (-exponent).toNat / (unitsPerOne * tenTo exponent.toNat)

/-- The multiple of `10 ^ exponent` that reads back, the nearer one if both neighbours of the
magnitude do, and the greater one of two equally near. -/
def onGrid? (rank : Nat) (exponent : Int) : Option Nat :=
  let below := multiples rank exponent
  match readsBack rank below exponent, readsBack rank (below + 1) exponent with
  | false, false => none
  | true, false => some below
  | false, true => some (below + 1)
  | true, true =>
    if compareDecimal (2 * below + 1) exponent (4 * units rank) == .gt then some below
    else some (below + 1)

/-- The first grid with a decimal that reads back, from `10 ^ exponent` on downwards. On the grid of
10^-1074 every magnitude stands exactly. -/
def shortestFrom (rank : Nat) : Nat → Int → Nat × Int
  | 0, exponent => (multiples rank exponent, exponent)
  | finer + 1, exponent =>
    match onGrid? rank exponent with
    | some digits => (digits, exponent)
    | none => shortestFrom rank finer (exponent - 1)

def coarsest (rank : Nat) : Int := (((units rank).log2 : Int) - 1074) * 30103 / 100000 + 2

def shortest (rank : Nat) : Nat × Int :=
  let top := coarsest rank
  shortestFrom rank (top + 1074).toNat top

end Rollup.Binary64
