import Rollup.Binary64.Reader
import Rollup.Json.Value

namespace Rollup.Json

open Text

inductive Token where
  | mark (c : Char)
  | text (s : String)
  | word (cs : List Char)

/-- Where the reader of tokens stands. Characters read so far come latest first; `high` is the first
half of a surrogate pair. -/
inductive Mode where
  | between
  | word (read : List Char)
  | text (read : List Char)
  | escape (read : List Char)
  | hex (read : List Char) (high : Option Nat) (count value : Nat)
  | secondHalf (read : List Char) (high : Nat)
  | secondEscape (read : List Char) (high : Nat)

structure Lexer where
  tokens : List Token
  mode : Mode

def isMark (c : Char) : Bool := "[]\x7b\x7d:,".toList.contains c

def isSpace (c : Char) : Bool := " \t\n\r".toList.contains c

def isWordChar (c : Char) : Bool := c.isAlphanum || "+-.".toList.contains c

def escaped? : Char → Option Char
  | '"' => some '"'
  | '\\' => some '\\'
  | '/' => some '/'
  | 'b' => some '\x08'
  | 'f' => some '\x0c'
  | 'n' => some '\n'
  | 'r' => some '\r'
  | 't' => some '\t'
  | _ => none

/-- The mode after a sixteen-bit unit. A surrogate is part of a pair or an error. -/
def afterUnit (read : List Char) (high : Option Nat) (unit : Nat) : Option Mode :=
  match high with
  | some first =>
    if 0xDC00 ≤ unit ∧ unit < 0xE000 then
      some (.text (Char.ofNat (0x10000 + (first - 0xD800) * 0x400 + (unit - 0xDC00)) :: read))
    else none
  | none =>
    if 0xD800 ≤ unit ∧ unit < 0xDC00 then some (.secondHalf read unit)
    else if 0xDC00 ≤ unit ∧ unit < 0xE000 then none
    else some (.text (Char.ofNat unit :: read))

def startToken (tokens : List Token) (c : Char) : Option Lexer :=
  if isSpace c then some ⟨tokens, .between⟩
  else if isMark c then some ⟨.mark c :: tokens, .between⟩
  else if c = '"' then some ⟨tokens, .text []⟩
  else if isWordChar c then some ⟨tokens, .word [c]⟩
  else none

def Lexer.step (l : Lexer) (c : Char) : Option Lexer :=
  match l.mode with
  | .between => startToken l.tokens c
  | .word read =>
    if isWordChar c then some { l with mode := .word (c :: read) }
    else startToken (.word read.reverse :: l.tokens) c
  | .text read =>
    if c = '"' then some ⟨.text (String.ofList read.reverse) :: l.tokens, .between⟩
    else if c = '\\' then some { l with mode := .escape read }
    else if c.toNat < 0x20 then none
    else some { l with mode := .text (c :: read) }
  | .escape read =>
    if c = 'u' then some { l with mode := .hex read none 0 0 }
    else (escaped? c).map fun meant => { l with mode := .text (meant :: read) }
  | .hex read high count value =>
    (hexValue? c).bind fun digit =>
      if count < 3 then some { l with mode := .hex read high (count + 1) (value * 16 + digit) }
      else (afterUnit read high (value * 16 + digit)).map fun mode => { l with mode }
  | .secondHalf read high =>
    if c = '\\' then some { l with mode := .secondEscape read high } else none
  | .secondEscape read high =>
    if c = 'u' then some { l with mode := .hex read (some high) 0 0 } else none

def tokens? (cs : List Char) : Option (List Token) :=
  match cs.foldlM Lexer.step ⟨[], .between⟩ with
  | some ⟨tokens, .between⟩ => some tokens.reverse
  | some ⟨tokens, .word read⟩ => some (.word read.reverse :: tokens).reverse
  | _ => none

def isWellWritten (cs : List Char) : Bool :=
  let whole := cs.takeWhile isDigit
  let wholeFits := whole == ['0'] || (!whole.isEmpty && whole.head? != some '0')
  match cs.dropWhile isDigit with
  | '.' :: rest => wholeFits && (rest.head?.map isDigit).getD false
  | _ => wholeFits

/-- A number. Digits alone are an integer if 64 bits hold it; minus zero is none, and a number too
great for floating point is an error. -/
def number? (cs : List Char) : Option Number :=
  let (negative, unsigned) := match cs with
    | '-' :: rest => (true, rest)
    | rest => (false, rest)
  if !isWellWritten unsigned then none
  else (Binary64.decimal? unsigned).bind fun (digits, exponent) =>
    let x := Binary64.ofDecimal negative digits exponent
    let real := if x.isInfinite then none else some (.real x)
    if unsigned.all isDigit && !(negative && digits == 0) then
      (Number.ofInt? (if negative then -(digits : Int) else digits)).orElse fun _ => real
    else real

def literal? (cs : List Char) : Option Json :=
  match String.ofList cs with
  | "null" => some .null
  | "true" => some (.bool true)
  | "false" => some (.bool false)
  | _ => (number? cs).map .number

end Rollup.Json
