import Rollup.Binary64.Rounding
import Rollup.Binary64.Shortest
import Rollup.Text.Digits

namespace Rollup.Binary64

open Text

def signed (x : Binary64) (magnitude : List Char) : List Char :=
  if x.isNaN then "NaN".toList
  else (if x.negative then ['-'] else []) ++ if x.isInfinite then "inf".toList else magnitude

/-- The fewest digits that read back; a whole number below 10^16 keeps one decimal place. -/
def display (x : Binary64) : List Char :=
  x.signed <|
    if units x.rank % unitsPerOne = 0 ∧ units x.rank < tenTo 16 * unitsPerOne then
      withPlaces (units x.rank / unitsPerOne * 10) 1
    else
      let (digits, exponent) := shortest x.rank
      withPlaces (digits * tenTo exponent.toNat) (-exponent).toNat

def atPlaces (rank places : Nat) : Nat := nearestEven (units rank * tenTo places) unitsPerOne

def displayPlaces (x : Binary64) (places : Nat) : List Char :=
  x.signed <|
    withPlaces (atPlaces x.rank (min places 1074)) (min places 1074) ++
      List.replicate (places - 1074) '0'

end Rollup.Binary64
