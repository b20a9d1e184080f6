import Rollup.Binary64.Rounding
import Rollup.Text.Digits
import Rollup.Toml.Token
import Rollup.Toml.Value

namespace Rollup.Toml

open Text

def grouped? (isFigure : Char → Bool) (cs : List Char) : Option (List Char) :=
  let groups := cs.splitOn '_'
  if groups.all fun group => !group.isEmpty && group.all isFigure then some groups.flatten else none

def wholeNumber? (cs : List Char) : Option (List Char) :=
  (grouped? isDigit cs).filter fun digits => digits.length == 1 || digits.head? != some '0'

def valueInBase (base : Nat) (cs : List Char) : Nat :=
  cs.foldl (fun n c => base * n + (hexValue? c).getD 0) 0

def isFigureIn (base : Nat) (c : Char) : Bool := (hexValue? c).any (· < base)

def inBase? (base : Nat) (cs : List Char) : Option Int :=
  (grouped? (isFigureIn base) cs).map fun digits => valueInBase base digits

/-- Only decimal integers have a sign, and all fit in 64 bits. -/
def integer? (cs : List Char) : Option Int :=
  let value := match cs with
    | '0' :: 'x' :: digits => inBase? 16 digits
    | '0' :: 'o' :: digits => inBase? 8 digits
    | '0' :: 'b' :: digits => inBase? 2 digits
    | _ =>
      let (negative, unsigned) := splitSign cs
      (wholeNumber? unsigned).map fun digits =>
        if negative then -(valueOfDigits digits : Int) else valueOfDigits digits
  value.filter fun n => -0x8000000000000000 ≤ n && n < 0x8000000000000000

def exponent? (cs : List Char) : Option Int :=
  let (negative, unsigned) := splitSign cs
  (grouped? isDigit unsigned).map fun digits =>
    if negative then -(valueOfDigits digits : Int) else valueOfDigits digits

def isExponentMark (c : Char) : Bool := c == 'e' || c == 'E'

def decimal? (cs : List Char) : Option (Nat × Int) :=
  let mantissa := cs.takeWhile (!isExponentMark ·)
  let whole := mantissa.takeWhile (· != '.')
  let fraction := match mantissa.dropWhile (· != '.') with
    | [] => some []
    | _ :: digits => grouped? isDigit digits
  let exponent := match cs.dropWhile (!isExponentMark ·) with
    | [] => if mantissa.contains '.' then some 0 else none
    | _ :: digits => exponent? digits
  match wholeNumber? whole, fraction, exponent with
  | some whole, some fraction, some exponent =>
    some (valueOfDigits (whole ++ fraction), exponent - fraction.length)
  | _, _, _ => none

def isFloat (cs : List Char) : Bool :=
  let (negative, unsigned) := splitSign cs
  unsigned == ['i', 'n', 'f'] || unsigned == ['n', 'a', 'n'] ||
    match decimal? unsigned with
    | some (digits, exponent) =>
      negative || (Binary64.ofDecimal negative digits exponent).isFinite
    | none => false

def figures? (count : Nat) (cs : List Char) : Option (Nat × List Char) :=
  let digits := cs.take count
  if digits.length = count ∧ digits.all isDigit then some (valueOfDigits digits, cs.drop count)
  else none

def isLeap (year : Nat) : Bool := year % 4 == 0 && (year % 100 != 0 || year % 400 == 0)

def daysIn (year month : Nat) : Nat :=
  if month = 2 then if isLeap year then 29 else 28
  else if month = 4 ∨ month = 6 ∨ month = 9 ∨ month = 11 then 30
  else 31

def expect? (c : Char) : List Char → Option (List Char)
  | d :: cs => if d = c then some cs else none
  | [] => none

def afterDate? (cs : List Char) : Option (List Char) := do
  let (year, cs) ← figures? 4 cs
  let cs ← expect? '-' cs
  let (month, cs) ← figures? 2 cs
  let cs ← expect? '-' cs
  let (day, cs) ← figures? 2 cs
  if 1 ≤ month ∧ month ≤ 12 ∧ 1 ≤ day ∧ day ≤ daysIn year month then some cs else none

def afterMinutes? (cs : List Char) : Option (List Char) := do
  let (hour, cs) ← figures? 2 cs
  let cs ← expect? ':' cs
  let (minute, cs) ← figures? 2 cs
  if hour < 24 ∧ minute < 60 then some cs else none

def afterTime? (cs : List Char) : Option (List Char) := do
  let cs ← afterMinutes? cs
  let cs ← expect? ':' cs
  let (second, cs) ← figures? 2 cs
  if 60 < second then none
  else match cs with
    | '.' :: cs => if (cs.head?.map isDigit).getD false then some (cs.dropWhile isDigit) else none
    | cs => some cs

def isOffset : List Char → Bool
  | [] => true
  | sign :: cs =>
    if sign = '+' ∨ sign = '-' then afterMinutes? cs == some []
    else cs.isEmpty && (sign == 'Z' || sign == 'z')

def isDate (cs : List Char) : Bool :=
  match afterDate? cs with
  | some [] => true
  | some (gap :: time) =>
    (gap == 'T' || gap == 't' || gap == ' ') && ((afterTime? time).map isOffset).getD false
  | none => afterTime? cs == some []

def word? (cs : List Char) : Option Toml :=
  if cs = "true".toList then some (.boolean true)
  else if cs = "false".toList then some (.boolean false)
  else if isDate cs then some .date
  else if isFloat cs then some .float
  else (integer? cs).map .integer

end Rollup.Toml
