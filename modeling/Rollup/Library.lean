import Rollup.Error
import Rollup.Json.Reader
import Rollup.Query

namespace Rollup

structure Library where
  items : List Item

namespace Library

def maxDepth : Nat := 127

def item (element : Json) (position : Nat) : Except Error Item :=
  match element with
  | .object members => .ok (.ofMembers members)
  | _ => .error (.invalidLibrary (.notAnObject position))

def ofJson (value : Json) : Except Error Library :=
  match value with
  | .array elements =>
    (elements.zipIdx.mapM fun (element, position) => item element position).map Library.mk
  | _ => .error (.invalidLibrary .notAnArray)

def ofText (text : String) : Except Error Library :=
  match Json.read? maxDepth text with
  | some value => ofJson value
  | none => .error .invalidJson

def load (source : Source) : Except Error Library :=
  match source.text with
  | .ok text => ofText text
  | .error fault => .error (.unreadable fault)

def matching (library : Library) (query : String) : List Item :=
  let query := Query.parse query
  if query.isEmpty then library.items else library.items.filter query.selects

end Library

end Rollup
