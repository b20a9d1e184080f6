import Rollup.Binary64.Rounding

namespace Rollup.Binary64

def add (x y : Binary64) : Binary64 :=
  if x.isNaN then x
  else if y.isNaN then y
  else if x.isInfinite then
    if y.isInfinite ∧ x.negative ≠ y.negative then quietNaN true else x
  else if y.isInfinite then y
  else
    let total := x.signedUnits + y.signedUnits
    ofRatio (if total = 0 then x.negative && y.negative else total < 0) total.natAbs 1

def sub (x y : Binary64) : Binary64 := x.add y.neg

def div (x y : Binary64) : Binary64 :=
  let negative := x.negative != y.negative
  if x.isNaN then x
  else if y.isNaN then y
  else if x.isInfinite then
    if y.isInfinite then quietNaN true else infinity negative
  else if y.isInfinite then zero negative
  else if y.rank = 0 then
    if x.rank = 0 then quietNaN true else infinity negative
  else ofRatio negative (units x.rank * unitsPerOne) (units y.rank)

/-- The running sum, from left to right. It starts at negative zero, which no sum can tell from
the absence of a term. -/
def sum (xs : List Binary64) : Binary64 := xs.foldl add (zero true)

end Rollup.Binary64
