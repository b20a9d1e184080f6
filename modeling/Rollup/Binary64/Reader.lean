import Rollup.Binary64.Rounding
import Rollup.Text.Digits

namespace Rollup.Binary64

open Text

def exponent? (cs : List Char) : Option Int :=
  let (negative, digits) := splitSign cs
  if digits.isEmpty || !digits.all isDigit then none
  else some (if negative then -(valueOfDigits digits : Int) else valueOfDigits digits)

/-- Digits with at most one point among or beside them and an optional exponent; the value is the
first component times ten to the second. -/
def decimal? (cs : List Char) : Option (Nat × Int) :=
  let whole := cs.takeWhile isDigit
  let afterWhole := cs.dropWhile isDigit
  let (fraction, rest) := match afterWhole with
    | '.' :: cs => (cs.takeWhile isDigit, cs.dropWhile isDigit)
    | cs => ([], cs)
  if whole.isEmpty && fraction.isEmpty then none
  else
    let digits := valueOfDigits (whole ++ fraction)
    match rest with
    | [] => some (digits, -(fraction.length : Int))
    | mark :: cs =>
      if mark = 'e' ∨ mark = 'E' then
        (exponent? cs).map fun exponent => (digits, exponent - fraction.length)
      else none

def parse? (cs : List Char) : Option Binary64 :=
  let (negative, unsigned) := splitSign cs
  let word := String.ofList (unsigned.map Char.toLower)
  if word = "inf" ∨ word = "infinity" then some (infinity negative)
  else if word = "nan" then some (quietNaN negative)
  else (decimal? unsigned).map fun (digits, exponent) => ofDecimal negative digits exponent

end Rollup.Binary64
