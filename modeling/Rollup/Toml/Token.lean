import Rollup.Text.Digits

namespace Rollup.Toml

open Text

inductive Token where
  | mark (c : Char)
  | text (s : String)
  | block (s : String)
  | word (cs : List Char)

/-- Where the reader of tokens stands. Characters read so far come latest first. Quoted text is basic
between `"` and literal between `'`; in a block `quotes` counts the quotes read last, and `fold` skips
the blanks behind a backslash, which must include a line end. -/
inductive Mode where
  | between
  | comment
  | word (read : List Char)
  | dateGap (read : List Char)
  | opening (quote : Char) (count : Nat)
  | text (quote : Char) (read : List Char)
  | blockStart (quote : Char)
  | block (quote : Char) (read : List Char) (quotes : Nat)
  | escape (inBlock : Bool) (read : List Char)
  | unicode (inBlock : Bool) (read : List Char) (missing value : Nat)
  | fold (read : List Char) (lineEnded : Bool)

structure Lexer where
  tokens : List Token
  mode : Mode

def isSpace (c : Char) : Bool := c == ' ' || c == '\t'

def isMark (c : Char) : Bool := "[]\x7b\x7d,=".toList.contains c

def isWordChar (c : Char) : Bool := c.isAlphanum || "_-+.:".toList.contains c

def isPlain (c : Char) : Bool := c == '\t' || (0x20 ≤ c.toNat && c.toNat != 0x7F)

def escaped? : Char → Option Char
  | 'b' => some '\x08'
  | 't' => some '\t'
  | 'n' => some '\n'
  | 'f' => some '\x0c'
  | 'r' => some '\r'
  | '"' => some '"'
  | '\\' => some '\\'
  | _ => none

def isDateShape (cs : List Char) : Bool :=
  cs.length == 10 && cs.zipIdx.all fun (c, i) => if i == 4 || i == 7 then c == '-' else isDigit c

def quotedMode (inBlock : Bool) (read : List Char) : Mode :=
  if inBlock then .block '"' read 0 else .text '"' read

def startToken (tokens : List Token) (c : Char) : Option Lexer :=
  if c = '\n' ∨ isSpace c ∨ isMark c then some ⟨.mark c :: tokens, .between⟩
  else if c = '#' then some ⟨tokens, .comment⟩
  else if c = '"' ∨ c = '\'' then some ⟨tokens, .opening c 1⟩
  else if isWordChar c then some ⟨tokens, .word [c]⟩
  else none

def textStep (tokens : List Token) (quote : Char) (read : List Char) (c : Char) : Option Lexer :=
  if c = quote then some ⟨.text (String.ofList read.reverse) :: tokens, .between⟩
  else if c = '\\' ∧ quote = '"' then some ⟨tokens, .escape false read⟩
  else if isPlain c then some ⟨tokens, .text quote (c :: read)⟩
  else none

def closeBlock (quote : Char) (read : List Char) (quotes : Nat) : Token :=
  .block (String.ofList (List.replicate (quotes - 3) quote ++ read).reverse)

def blockStep (tokens : List Token) (quote : Char) (read : List Char) (quotes : Nat) (c : Char) :
    Option Lexer :=
  if c = quote then if quotes = 5 then none else some ⟨tokens, .block quote read (quotes + 1)⟩
  else if 3 ≤ quotes then startToken (closeBlock quote read quotes :: tokens) c
  else
    let read := List.replicate quotes quote ++ read
    if c = '\\' ∧ quote = '"' then some ⟨tokens, .escape true read⟩
    else if isPlain c ∨ c = '\n' then some ⟨tokens, .block quote (c :: read) 0⟩
    else none

def escapeStep (tokens : List Token) (inBlock : Bool) (read : List Char) (c : Char) : Option Lexer :=
  if c = 'u' then some ⟨tokens, .unicode inBlock read 4 0⟩
  else if c = 'U' then some ⟨tokens, .unicode inBlock read 8 0⟩
  else if inBlock && (isSpace c || c == '\n') then some ⟨tokens, .fold read (c == '\n')⟩
  else (escaped? c).map fun meant => ⟨tokens, quotedMode inBlock (meant :: read)⟩

def Lexer.step (l : Lexer) (c : Char) : Option Lexer :=
  match l.mode with
  | .between => startToken l.tokens c
  | .comment =>
    if c = '\n' then startToken l.tokens c else if isPlain c then some l else none
  | .word read =>
    if isWordChar c then some { l with mode := .word (c :: read) }
    else if c = ' ' ∧ isDateShape read.reverse then some { l with mode := .dateGap read }
    else startToken (.word read.reverse :: l.tokens) c
  | .dateGap read =>
    if isDigit c then some { l with mode := .word (c :: ' ' :: read) }
    else startToken (.mark ' ' :: .word read.reverse :: l.tokens) c
  | .opening quote count =>
    if c = quote then
      some { l with mode := if count = 2 then .blockStart quote else .opening quote (count + 1) }
    else if count = 2 then startToken (.text "" :: l.tokens) c
    else textStep l.tokens quote [] c
  | .text quote read => textStep l.tokens quote read c
  | .blockStart quote =>
    if c = '\n' then some { l with mode := .block quote [] 0 } else blockStep l.tokens quote [] 0 c
  | .block quote read quotes => blockStep l.tokens quote read quotes c
  | .escape inBlock read => escapeStep l.tokens inBlock read c
  | .unicode inBlock read missing value =>
    (hexValue? c).bind fun digit =>
      let value := value * 16 + digit
      if missing > 1 then some { l with mode := .unicode inBlock read (missing - 1) value }
      else if value.isValidChar then
        some { l with mode := quotedMode inBlock (Char.ofNat value :: read) }
      else none
  | .fold read lineEnded =>
    if isSpace c then some l
    else if c = '\n' then some { l with mode := .fold read true }
    else if lineEnded then blockStep l.tokens '"' read 0 c
    else none

def Lexer.finish? (l : Lexer) : Option (List Token) :=
  match l.mode with
  | .between | .comment => some l.tokens
  | .word read => some (.word read.reverse :: l.tokens)
  | .dateGap read => some (.mark ' ' :: .word read.reverse :: l.tokens)
  | .opening _ 2 => some (.text "" :: l.tokens)
  | .block quote read quotes =>
    if 3 ≤ quotes then some (closeBlock quote read quotes :: l.tokens) else none
  | _ => none

def joinLineEnds : List Char → List Char
  | '\r' :: '\n' :: cs => '\n' :: joinLineEnds cs
  | c :: cs => c :: joinLineEnds cs
  | [] => []

def tokens? (cs : List Char) : Option (List Token) :=
  (((joinLineEnds cs).foldlM Lexer.step ⟨[], .between⟩).bind Lexer.finish?).map List.reverse

end Rollup.Toml
