import Rollup.Json.Value
import Rollup.Keyed

namespace Rollup

structure Item where
  fields : Keyed Scalar

namespace Item

def field? (item : Item) (name : String) : Option Scalar := item.fields.get? name

/-- The item of a JSON object. Of a repeated name the last member counts, and it counts as absent
if its value is no scalar. -/
def ofMembers (members : List (String × Json)) : Item :=
  ⟨(Keyed.ofList members).filterMap Json.scalar?⟩

end Item

end Rollup
