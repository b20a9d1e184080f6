namespace Rollup

/-- A sign and a rank: the sixty-three bits below the sign, read as a natural number. Ranks grow
with magnitude, from zero through the finite numbers to infinity and then the NaNs. Equality is
equality of bits. -/
structure Binary64 where
  negative : Bool
  rank : Nat
  rank_lt : rank < 0x8000000000000000
deriving DecidableEq

namespace Binary64

def infinityRank : Nat := 0x7FF0000000000000

theorem infinityRank_lt : infinityRank < 0x8000000000000000 := by decide

def zero (negative : Bool) : Binary64 := ⟨negative, 0, by decide⟩

def infinity (negative : Bool) : Binary64 := ⟨negative, infinityRank, infinityRank_lt⟩

def quietNaN (negative : Bool) : Binary64 := ⟨negative, 0x7FF8000000000000, by decide⟩

def isNaN (x : Binary64) : Bool := infinityRank < x.rank

def isInfinite (x : Binary64) : Bool := x.rank == infinityRank

def isFinite (x : Binary64) : Bool := x.rank < infinityRank

def neg (x : Binary64) : Binary64 := { x with negative := !x.negative }

def orderSize : Nat := 0x10000000000000

/-- The magnitude that stands at a rank, in units of 2^-1074. In the two lowest orders neighbours are
one unit apart, and each further order doubles the distance. -/
def units (rank : Nat) : Nat :=
  if rank < orderSize then rank
  else (orderSize + rank % orderSize) <<< (rank / orderSize - 1)

def unitsPerOne : Nat := 1 <<< 1074

def signedUnits (x : Binary64) : Int :=
  if x.negative then -(units x.rank : Int) else units x.rank

/-- The place of a number in the total order: negative NaNs first, then by value with -0 before 0,
positive NaNs last. -/
def place (x : Binary64) : Int := if x.negative then -(x.rank : Int) - 1 else x.rank

def total (x y : Binary64) : Ordering := compare x.place y.place

def atMost (x y : Binary64) : Bool :=
  !x.isNaN && !y.isNaN && x.signedUnits ≤ y.signedUnits

def whole? (x : Binary64) : Option Int :=
  if x.isFinite ∧ units x.rank % unitsPerOne = 0 then
    let n : Int := (units x.rank / unitsPerOne : Nat)
    some (if x.negative then -n else n)
  else none

end Binary64

end Rollup
