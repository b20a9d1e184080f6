import Rollup.Binary64.Basic
import Rollup.Text.Digits

namespace Rollup.Binary64

def nearestEven (num den : Nat) : Nat :=
  let q := num / den
  let r := num % den
  if 2 * r < den then q else if den < 2 * r then q + 1 else q + q % 2

/-- The rank nearest to `num / den` units. Magnitudes below 2^53 units are spaced one unit apart,
those of each further binary order twice as far as those before it. -/
def rankOfRatio (num den : Nat) : Nat :=
  let order := (num / den).log2 - 52
  min (order * orderSize + nearestEven num (den <<< order)) infinityRank

theorem rankOfRatio_le (num den : Nat) : rankOfRatio num den ≤ infinityRank := Nat.min_le_right ..

def ofRatio (negative : Bool) (num den : Nat) : Binary64 :=
  ⟨negative, rankOfRatio num den, Nat.lt_of_le_of_lt (rankOfRatio_le num den) infinityRank_lt⟩

def ofInt (n : Int) : Binary64 := ofRatio (n < 0) (n.natAbs * unitsPerOne) 1

/-- The number nearest to `digits * 10 ^ exponent`. The first two cases spare the power of ten
where the answer is already known: above 10^309 it is infinite, and below 2^-1075 it is zero. -/
def ofDecimal (negative : Bool) (digits : Nat) (exponent : Int) : Binary64 :=
  if digits = 0 ∨ exponent < 0 ∧ digits.log2 + 1077 ≤ 3 * exponent.natAbs then zero negative
  else if 309 ≤ exponent then infinity negative
  else if 0 ≤ exponent then
    ofRatio negative (digits * tenTo exponent.natAbs * unitsPerOne) 1
  else ofRatio negative (digits * unitsPerOne) (tenTo exponent.natAbs)

end Rollup.Binary64
