import Rollup.Error
import Rollup.Stat.Basic
import Rollup.Text.Cut
import Rollup.Text.Lowercase

namespace Rollup

structure Modifiers where
  reduction : Option Reduction
  measure : Option Measure
  distinct : Bool

namespace Modifiers

def empty : Modifiers := ⟨none, none, false⟩

def add (m : Modifiers) (token : String) : Except StatFault Modifiers :=
  match Reduction.ofToken? token, Measure.ofToken? token with
  | some reduction, _ =>
    if m.reduction.isSome then .error .secondReduction
    else .ok { m with reduction := some reduction }
  | none, some measure =>
    if m.measure.isSome then .error .secondMeasure else .ok { m with measure := some measure }
  | none, none =>
    if token = "unique" then .ok { m with distinct := true } else .error (.unknownModifier token)

def ofTokens (tokens : List String) : Except StatFault Modifiers := tokens.foldlM add empty

/-- The statistic over a field. Without a reduction the values are added up. -/
def toStat (m : Modifiers) (field : String) : Stat :=
  ⟨field, m.reduction.getD .sum, m.measure, m.distinct⟩

end Modifiers

namespace Stat

def splitField (cs : List Char) : List Char × List Char := (Text.cutLast? '|' cs).getD ([], cs)

def modifierTokens (cs : List Char) : List String :=
  if cs.isEmpty then [] else (cs.splitOn ':').map String.ofList

def read (lowered : String) : Except StatFault Stat :=
  if lowered = "" then .error .empty
  else if lowered = Reduction.count.name then .ok count
  else
    let (modifiers, field) := splitField lowered.toList
    if field.isEmpty then .error .missingField
    else (Modifiers.ofTokens (modifierTokens modifiers)).map (·.toStat (String.ofList field))

def parse (text : String) : Except Error Stat :=
  (read (Text.lowercase text)).mapError (.malformedStat text)

end Stat

end Rollup
