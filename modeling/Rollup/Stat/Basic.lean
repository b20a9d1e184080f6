import Rollup.Number

namespace Rollup

inductive Reduction where
  | min
  | max
  | count
  | sum
  | avg
  | range
deriving DecidableEq

namespace Reduction

def all : List Reduction := [.min, .max, .count, .sum, .avg, .range]

def name : Reduction → String
  | .min => "min"
  | .max => "max"
  | .count => "count"
  | .sum => "sum"
  | .avg => "avg"
  | .range => "range"

def ofToken? (token : String) : Option Reduction := all.find? (·.name == token)

end Reduction

/-- What makes a number of a text: its characters, or its pieces between single spaces. -/
inductive Measure where
  | len
  | words
deriving DecidableEq

namespace Measure

def all : List Measure := [.len, .words]

def name : Measure → String
  | .len => "len"
  | .words => "words"

def ofToken? (token : String) : Option Measure := all.find? (·.name == token)

def size : Measure → String → Nat
  | .len, s => s.toList.length
  | .words, s => (s.toList.splitOn ' ').length

end Measure

structure Stat where
  field : String
  reduction : Reduction
  measure : Option Measure
  distinct : Bool
deriving DecidableEq

namespace Stat

def count : Stat := ⟨"title", .count, none, false⟩

def readsField (stat : Stat) : Bool := stat.reduction != .count || stat.distinct

end Stat

end Rollup
