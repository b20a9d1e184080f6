import Rollup.Error
import Rollup.Item
import Rollup.Sorting
import Rollup.Stat.Basic

namespace Rollup

namespace Number

def addInts? (acc : Int64) : List Number → Option Number
  | [] => some (.int acc)
  | .real _ :: _ => none
  | .int n :: rest =>
    match ofInt? (acc.toInt + n.toInt) with
    | some (.int total) => addInts? total rest
    | _ => none

/-- One floating-point term, or a partial sum too great for an integer, makes the whole sum a
floating-point one. -/
def sum (numbers : List Number) : Number :=
  (addInts? 0 numbers).getD (.real (Binary64.sum (numbers.map toReal)))

/-- The first of the least numbers. -/
def least? : List Number → Option Number
  | [] => none
  | x :: xs => some (xs.foldl (fun least y => if y.below least then y else least) x)

/-- The last of the greatest numbers. -/
def greatest? : List Number → Option Number
  | [] => none
  | x :: xs => some (xs.foldl (fun greatest y => if y.below greatest then greatest else y) x)

def spread (least greatest : Number) : Number :=
  match least, greatest with
  | .int low, .int high =>
    (ofInt? (high.toInt - low.toInt)).getD (.real (greatest.toReal.sub least.toReal))
  | _, _ => .real (greatest.toReal.sub least.toReal)

def mean (numbers : List Number) : Number :=
  .real ((Binary64.sum (numbers.map toReal)).div (.ofInt numbers.length))

end Number

namespace Reduction

def reduce? : Reduction → List Number → Option Number
  | .count, numbers => some (.ofNat numbers.length)
  | .sum, numbers => some (Number.sum numbers)
  | .min, numbers => Number.least? numbers
  | .max, numbers => Number.greatest? numbers
  | .range, numbers =>
    (Number.least? numbers).bind fun least => (Number.greatest? numbers).map (Number.spread least)
  | .avg, numbers => if numbers.isEmpty then none else some (Number.mean numbers)

end Reduction

namespace Scalar

def distinct? (values : List Scalar) : Option (List Scalar) :=
  (sort? below values).map (dropRepeats fun x y => x.compare y == .eq)

def measured (measure : Measure) : Scalar → Number
  | .number n => n
  | .text s => .ofNat (measure.size s)

end Scalar

namespace Stat

def values (stat : Stat) (items : List Item) : Except Error (List Scalar) :=
  items.mapM fun item =>
    match item.field? stat.field with
    | some value => .ok value
    | none => .error (.unknownField stat.field)

def kept? (stat : Stat) (values : List Scalar) : Option (List Scalar) :=
  if stat.distinct then Scalar.distinct? values else some values

def reduce (stat : Stat) (values : List Scalar) : Except Error Number :=
  match stat.kept? values with
  | none => .error .unordered
  | some kept =>
    match stat.reduction.reduce? (kept.map (Scalar.measured (stat.measure.getD .len))) with
    | some result => .ok result
    | none => .error (.emptyCollection (stat.reduction.name ++ "|" ++ stat.field))

/-- A plain count reads no field. Otherwise the values are collected, repeats dropped if only
distinct ones are asked for, texts measured, and the numbers reduced. -/
def evaluate (stat : Stat) (items : List Item) : Except Error Number :=
  if stat.readsField then (stat.values items).bind stat.reduce
  else .ok (.ofNat items.length)

end Stat

end Rollup
