import Rollup.Binary64.Arithmetic
import Rollup.Binary64.Display

namespace Rollup

inductive Number where
  | int (n : Int64)
  | real (x : Binary64)
deriving DecidableEq

namespace Number

def toReal : Number → Binary64
  | .int n => .ofInt n.toInt
  | .real x => x

/-- Two integers compare exactly. Beside a floating-point number an integer is rounded first. -/
def compare : Number → Number → Ordering
  | .int m, .int n => Ord.compare m.toInt n.toInt
  | x, y => x.toReal.total y.toReal

def below (x y : Number) : Bool := x.compare y == .lt

def ofInt? (n : Int) : Option Number :=
  if -0x8000000000000000 ≤ n ∧ n < 0x8000000000000000 then some (.int (.ofInt n)) else none

def ofNat (n : Nat) : Number := .int (.ofInt (min n 0x7FFFFFFFFFFFFFFF : Nat))

def display : Number → String
  | .int n => toString n.toInt
  | .real x => String.ofList x.display

def displayPlaces (x : Number) (places : Nat) : String :=
  String.ofList (x.toReal.displayPlaces places)

end Number

end Rollup
