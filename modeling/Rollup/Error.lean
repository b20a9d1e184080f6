import Rollup.Source

namespace Rollup

inductive StatFault where
  | empty
  | missingField
  | secondReduction
  | secondMeasure
  | unknownModifier (token : String)
  | noStats
deriving DecidableEq

namespace StatFault

def message : StatFault → String
  | .empty => "empty stat expression"
  | .missingField => "missing field name"
  | .secondReduction => "more than one aggregator specified"
  | .secondMeasure => "more than one str conversion specified"
  | .unknownModifier token => s!"unknown modifier '{token}'"
  | .noStats => "no stats given"

end StatFault

inductive LibraryFault where
  | notAnArray
  | notAnObject (position : Nat)
deriving DecidableEq

namespace LibraryFault

def message : LibraryFault → String
  | .notAnArray => "expected a JSON array of items"
  | .notAnObject position => s!"item {position} is not an object"

end LibraryFault

/-- The last two are crashes. `layoutLimit` stands for a cell that no layout can hold: more than
65535 decimal places, or a column wider than 65535 characters. `unordered` stands for a sort that
has found out that its values are in no order. -/
inductive Error where
  | malformedStat (stat : String) (fault : StatFault)
  | emptyInput
  | emptyCollection (stat : String)
  | missingKey (key : String)
  | unknownField (field : String)
  | invalidJson
  | invalidLibrary (fault : LibraryFault)
  | unreadable (fault : ReadFault)
  | layoutLimit
  | unordered
deriving DecidableEq

namespace Error

def isCrash : Error → Bool
  | .layoutLimit | .unordered => true
  | _ => false

def message : Error → String
  | .malformedStat stat fault => s!"Malformed stat '{stat}': {fault.message}"
  | .emptyInput => "No items to summarize"
  | .emptyCollection stat => s!"Cannot compute '{stat}' over an empty collection"
  | .missingKey key => s!"Sort key '{key}' missing from summary row"
  | .unknownField field => s!"Unknown field '{field}'"
  | .invalidJson => "Invalid JSON input"
  | .invalidLibrary fault => s!"Invalid library: {fault.message}"
  | .unreadable fault => s!"IO error: {fault.message}"
  | .layoutLimit => "Formatting argument out of range"
  | .unordered => "user-provided comparison function does not correctly implement a total order"

end Error

end Rollup
