import Rollup.Binary64.Reader
import Rollup.Item
import Rollup.Text.Blank
import Rollup.Text.Cut
import Rollup.Text.Lowercase

namespace Rollup

inductive Pattern where
  | containing (lowered : List Char)
  | between (least greatest : Option Binary64)
deriving DecidableEq

inductive Term where
  | field (name : String) (pattern : Pattern)
  | anywhere (lowered : List Char)
deriving DecidableEq

structure Query where
  terms : List Term
deriving DecidableEq

namespace Pattern

def bound? (cs : List Char) : Option (Option Binary64) :=
  if cs.isEmpty then some none else (Binary64.parse? cs).map some

/-- Two numbers around two dots, of which one may be missing, are a range. Any other pattern is a
text to look for. -/
def parse (cs : List Char) : Pattern :=
  match Text.cutFirst? ['.', '.'] cs with
  | some (low, high) =>
    match bound? low, bound? high with
    | some none, some none => .containing (Text.lower cs)
    | some least, some greatest => .between least greatest
    | _, _ => .containing (Text.lower cs)
  | none => .containing (Text.lower cs)

def finds (needle : List Char) (s : String) : Bool := Text.occursIn needle (Text.lower s.toList)

def holds (pattern : Pattern) (value : Scalar) : Bool :=
  match pattern with
  | .containing needle => finds needle value.display
  | .between least greatest =>
    match value.number? with
    | some n =>
      (least.map (·.atMost n.toReal)).getD true && (greatest.map n.toReal.atMost).getD true
    | none => false

end Pattern

namespace Term

/-- A pattern behind the name of a field, or a text to look for in every text of an item. -/
def parse (cs : List Char) : Term :=
  match Text.cutFirst? [':'] cs with
  | some (name, pattern) =>
    if name.isEmpty then .anywhere (Text.lower cs)
    else .field (String.ofList (Text.lower name)) (.parse pattern)
  | none => .anywhere (Text.lower cs)

def holds (term : Term) (item : Item) : Bool :=
  match term with
  | .field name pattern => ((item.field? name).map pattern.holds).getD false
  | .anywhere needle =>
    item.fields.entries.any fun (_, value) =>
      match value with
      | .text s => Pattern.finds needle s
      | .number _ => false

end Term

namespace Query

def parse (text : String) : Query := ⟨(Text.words text.toList).map Term.parse⟩

def isEmpty (query : Query) : Bool := query.terms.isEmpty

def selects (query : Query) (item : Item) : Bool := query.terms.all (·.holds item)

end Query

end Rollup
