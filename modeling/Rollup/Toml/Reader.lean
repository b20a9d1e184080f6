import Rollup.Toml.Word

namespace Rollup.Toml

structure Key where
  parts : List String
  complete : Bool

namespace Key

def start : Key := ⟨[], false⟩

def addPart? (key : Key) (part : String) : Option Key :=
  if key.complete then none else some ⟨part :: key.parts, true⟩

def addDot? (key : Key) : Option Key := if key.complete then some ⟨key.parts, false⟩ else none

def isKeyChar (c : Char) : Bool := c.isAlphanum || c == '_' || c == '-'

def addBare? (key : Key) (cs : List Char) : Option Key :=
  if cs.isEmpty then some key
  else if cs.all isKeyChar then key.addPart? (String.ofList cs)
  else none

def addWord? (key : Key) (cs : List Char) : Option Key :=
  match cs.splitOn '.' with
  | [] => some key
  | first :: rest =>
    rest.foldlM (fun key cs => key.addDot?.bind (·.addBare? cs)) =<< key.addBare? first

def step? (key : Key) : Token → Option Key
  | .mark c => if isSpace c then some key else none
  | .text s => key.addPart? s
  | .block _ => none
  | .word cs => key.addWord? cs

def limit : Nat := 80

/-- The tables on the way and the last part. -/
def path? (key : Key) : Option (List String × String) :=
  match key.parts with
  | [] => none
  | name :: path =>
    if key.complete ∧ key.parts.length < limit then some (path.reverse, name) else none

end Key

/-- What waits for the value that is being read: a statement, or a container around it. -/
inductive Frame where
  | statement (path : List String) (name : String)
  | array (items : List Toml)
  | inline (entries : Entries) (path : List String) (name : String)

inductive Place where
  | lineStart
  | lineEnd
  | headerStart
  | header (double : Bool) (key : Key)
  | headerEnd (path : List String) (name : String)
  | key (key : Key)
  | value (outer : List Frame)
  | arrayItem (items : List Toml) (outer : List Frame)
  | arrayNext (items : List Toml) (outer : List Frame)
  | inlineStart (outer : List Frame)
  | inlineKey (entries : Entries) (key : Key) (outer : List Frame)
  | inlineNext (entries : Entries) (outer : List Frame)

/-- The tables so far, the path of the one that the last header opened, and the place. -/
structure State where
  root : Entries
  current : List String
  place : Place

namespace State

def goTo (s : State) (place : Place) : State := { s with place }

def deliver? (s : State) (value : Toml) : List Frame → Option State
  | [] => none
  | .statement path name :: _ =>
    (change? (assign? value name path) s.current s.root).map fun root =>
      { s with root, place := .lineEnd }
  | .array items :: outer => some (s.goTo (.arrayNext (value :: items) outer))
  | .inline entries path name :: outer =>
    (assign? value name path entries).map fun entries => s.goTo (.inlineNext entries outer)

def depthLimit : Nat := 80

def begin? (s : State) (outer : List Frame) : Token → Option State
  | .mark '[' => if outer.length < depthLimit then some (s.goTo (.arrayItem [] outer)) else none
  | .mark '{' => if outer.length < depthLimit then some (s.goTo (.inlineStart outer)) else none
  | .mark _ => none
  | .text text => s.deliver? (.string text) outer
  | .block text => s.deliver? (.string text) outer
  | .word cs => (word? cs).bind (s.deliver? · outer)

def openTable? (s : State) (path : List String) (name : String) : Option State :=
  (Toml.openTable? path name s.root).map fun root => ⟨root, path ++ [name], .lineEnd⟩

def openElement? (s : State) (path : List String) (name : String) : Option State :=
  (Toml.openElement? path name s.root).map fun root => ⟨root, path ++ [name], .lineEnd⟩

def headerStep? (s : State) (double : Bool) (key : Key) : Token → Option State
  | .mark ']' =>
    key.path?.bind fun (path, name) =>
      if double then some (s.goTo (.headerEnd path name)) else s.openTable? path name
  | token => (key.step? token).map fun key => s.goTo (.header double key)

def keyStep? (s : State) (key : Key) : Token → Option State
  | .mark '=' => key.path?.map fun (path, name) => s.goTo (.value [.statement path name])
  | token => (key.step? token).map fun key => s.goTo (.key key)

def inlineKeyStep? (s : State) (entries : Entries) (key : Key) (outer : List Frame) :
    Token → Option State
  | .mark '=' =>
    key.path?.map fun (path, name) => s.goTo (.value (.inline entries path name :: outer))
  | token => (key.step? token).map fun key => s.goTo (.inlineKey entries key outer)

def isBlank : Token → Bool
  | .mark c => isSpace c
  | _ => false

def isBlankOrLineEnd : Token → Bool
  | .mark c => isSpace c || c == '\n'
  | _ => false

def step? (s : State) (token : Token) : Option State :=
  match s.place, token with
  | .lineStart, .mark '[' => some (s.goTo .headerStart)
  | .lineStart, token => if isBlankOrLineEnd token then some s else s.keyStep? .start token
  | .lineEnd, .mark '\n' => some (s.goTo .lineStart)
  | .lineEnd, token => if isBlank token then some s else none
  | .headerStart, .mark '[' => some (s.goTo (.header true .start))
  | .headerStart, token => s.headerStep? false .start token
  | .header double key, token => s.headerStep? double key token
  | .headerEnd path name, .mark ']' => s.openElement? path name
  | .headerEnd .., _ => none
  | .key key, token => s.keyStep? key token
  | .value outer, token => if isBlank token then some s else s.begin? outer token
  | .arrayItem items outer, .mark ']' => s.deliver? (.array items.reverse) outer
  | .arrayItem items outer, token =>
    if isBlankOrLineEnd token then some s else s.begin? (.array items :: outer) token
  | .arrayNext items outer, .mark ',' => some (s.goTo (.arrayItem items outer))
  | .arrayNext items outer, .mark ']' => s.deliver? (.array items.reverse) outer
  | .arrayNext .., token => if isBlankOrLineEnd token then some s else none
  | .inlineStart outer, .mark '}' => s.deliver? (.table .value []) outer
  | .inlineStart outer, token => if isBlank token then some s else s.inlineKeyStep? [] .start outer token
  | .inlineKey entries key outer, token => s.inlineKeyStep? entries key outer token
  | .inlineNext entries outer, .mark ',' => some (s.goTo (.inlineKey entries .start outer))
  | .inlineNext entries outer, .mark '}' => s.deliver? (.table .value entries) outer
  | .inlineNext .., token => if isBlank token then some s else none

end State

def dropByteOrderMark : List Char → List Char
  | [] => []
  | c :: cs => if c = '\ufeff' then cs else c :: cs

def read? (text : String) : Option Entries :=
  match (tokens? (dropByteOrderMark text.toList)).bind (·.foldlM State.step? ⟨[], [], .lineStart⟩) with
  | some ⟨root, _, .lineStart⟩ => some root
  | some ⟨root, _, .lineEnd⟩ => some root
  | _ => none

end Rollup.Toml
