import Rollup.Json.Token

namespace Rollup.Json

/-- A container around the value that is being read, with its earlier contents, latest first. -/
inductive Frame where
  | array (items : List Json)
  | object (members : List (String × Json)) (name : String)

/-- What has been read: what may come next, inside the containers of `outer`, innermost first. -/
inductive State where
  | value (outer : List Frame)
  | firstItem (outer : List Frame)
  | afterItem (items : List Json) (outer : List Frame)
  | firstName (outer : List Frame)
  | nextName (members : List (String × Json)) (outer : List Frame)
  | colon (members : List (String × Json)) (name : String) (outer : List Frame)
  | afterMember (members : List (String × Json)) (outer : List Frame)
  | done (value : Json)

def deliver (value : Json) : List Frame → State
  | [] => .done value
  | .array items :: outer => .afterItem (value :: items) outer
  | .object members name :: outer => .afterMember ((name, value) :: members) outer

def begin (depth : Nat) (outer : List Frame) : Token → Option State
  | .mark '[' => if outer.length < depth then some (.firstItem outer) else none
  | .mark '{' => if outer.length < depth then some (.firstName outer) else none
  | .mark _ => none
  | .text s => some (deliver (.string s) outer)
  | .word cs => (literal? cs).map (deliver · outer)

def State.step (depth : Nat) : State → Token → Option State
  | .value outer, token => begin depth outer token
  | .firstItem outer, .mark ']' => some (deliver (.array []) outer)
  | .firstItem outer, token => begin depth (.array [] :: outer) token
  | .afterItem items outer, .mark ',' => some (.value (.array items :: outer))
  | .afterItem items outer, .mark ']' => some (deliver (.array items.reverse) outer)
  | .firstName outer, .mark '}' => some (deliver (.object []) outer)
  | .firstName outer, .text name => some (.colon [] name outer)
  | .nextName members outer, .text name => some (.colon members name outer)
  | .colon members name outer, .mark ':' => some (.value (.object members name :: outer))
  | .afterMember members outer, .mark ',' => some (.nextName members outer)
  | .afterMember members outer, .mark '}' => some (deliver (.object members.reverse) outer)
  | _, _ => none

/-- The value of a JSON text whose containers are nested at most `depth` deep. -/
def read? (depth : Nat) (text : String) : Option Json :=
  match (tokens? text.toList).bind (·.foldlM (State.step depth) (.value [])) with
  | some (.done value) => some value
  | _ => none

end Rollup.Json
