import Rollup.Number

namespace Rollup

inductive Scalar where
  | number (n : Number)
  | text (s : String)
deriving DecidableEq

namespace Scalar

def isText : Scalar → Bool
  | .text _ => true
  | .number _ => false

def number? : Scalar → Option Number
  | .number n => some n
  | .text _ => none

/-- Numbers stand before texts, texts by their code points. -/
def compare : Scalar → Scalar → Ordering
  | .number m, .number n => m.compare n
  | .number _, .text _ => .lt
  | .text _, .number _ => .gt
  | .text s, .text t => if s < t then .lt else if t < s then .gt else .eq

def below (x y : Scalar) : Bool := x.compare y == .lt

def display : Scalar → String
  | .number n => n.display
  | .text s => s

end Scalar

end Rollup
