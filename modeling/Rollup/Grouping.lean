import Rollup.Error
import Rollup.Scalar
import Rollup.Text.Blank
import Rollup.Text.Cut

namespace Rollup

/-- What tells group keys apart: numbers by exact value, as far as 64 bits hold the integer, and
texts by their characters. -/
inductive Slot where
  | whole (n : Int64)
  | fractional (x : Binary64)
  | text (s : String)
deriving DecidableEq

def Slot.ofReal (x : Binary64) : Slot :=
  match x.whole? with
  | some n => if n.natAbs < 0x8000000000000000 then .whole (.ofInt n) else .fractional x
  | none => .fractional x

namespace Scalar

def slot : Scalar → Slot
  | .number (.int n) => .whole n
  | .number (.real x) => .ofReal x
  | .text s => .text s

end Scalar

structure Group (α : Type) where
  key : Scalar
  members : List α

namespace Grouping

variable {α : Type}

/-- The categories whose texts list several entries between semicolons. -/
def listCategories : List String := ["albumartist", "artist", "genre"]

def keys (category : String) : Scalar → List Scalar
  | .text s =>
    if listCategories.contains category then
      (s.toList.splitOn ';').map fun piece => .text (String.ofList (Text.trim piece))
    else [.text s]
  | value => [value]

def entries (category : String) (value? : α → Option Scalar) (element : α) :
    Except Error (List (Scalar × α)) :=
  match value? element with
  | some value => .ok ((keys category value).map (·, element))
  | none => .error (.unknownField category)

def stream (category : String) (value? : α → Option Scalar) (elements : List α) :
    Except Error (List (Scalar × α)) :=
  (elements.mapM (entries category value?)).map List.flatten

def join (groups : List (Group α)) (key : Scalar) (element : α) : List (Group α) :=
  match groups with
  | [] => [⟨key, [element]⟩]
  | group :: rest =>
    if group.key.slot = key.slot then { group with members := group.members ++ [element] } :: rest
    else group :: join rest key element

def gather (entries : List (Scalar × α)) : List (Group α) :=
  entries.foldl (fun groups (key, element) => join groups key element) []

end Grouping

/-- The groups of a list by the values that `value?` finds under a category, in the order in which
their keys first occur. -/
def groupBy {α : Type} (category : String) (value? : α → Option Scalar) (elements : List α) :
    Except Error (List (Group α)) :=
  (Grouping.stream category value? elements).map Grouping.gather

end Rollup
