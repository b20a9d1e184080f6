import Rollup.Scalar

namespace Rollup

inductive Json where
  | null
  | bool (b : Bool)
  | number (n : Number)
  | string (s : String)
  | array (items : List Json)
  | object (members : List (String × Json))

namespace Json

/-- The field value that a JSON value stands for. Flags are the integers 0 and 1; null and
containers stand for none. -/
def scalar? : Json → Option Scalar
  | .string s => some (.text s)
  | .number n => some (.number n)
  | .bool b => some (.number (.int (if b then 1 else 0)))
  | .null | .array _ | .object _ => none

end Json

end Rollup
