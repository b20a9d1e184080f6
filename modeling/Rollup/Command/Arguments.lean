namespace Rollup.Command

structure Arguments where
  words : List String
  groupBy : Option String
  stats : Option String
  library : Option String
  ascending : Bool

inductive Refusal where
  | misuse
  | help
  | version

inductive Setting where
  | groupBy
  | stats
  | library

inductive Switch where
  | takes (setting : Setting)
  | ascending
  | help
  | version

namespace Switch

def ofLetter? : Char → Option Switch
  | 'g' => some (.takes .groupBy)
  | 's' => some (.takes .stats)
  | 'l' => some (.takes .library)
  | 'R' => some .ascending
  | 'h' => some .help
  | 'V' => some .version
  | _ => none

def ofName? : String → Option Switch
  | "group-by" => some (.takes .groupBy)
  | "stats" => some (.takes .stats)
  | "library" => some (.takes .library)
  | "not-reverse" => some .ascending
  | "help" => some .help
  | "version" => some .version
  | _ => none

end Switch

namespace Arguments

def empty : Arguments := ⟨[], none, none, none, false⟩

def addWord (given : Arguments) (word : String) : Arguments :=
  { given with words := given.words ++ [word] }

def set (given : Arguments) (setting : Setting) (value : String) : Except Refusal Arguments :=
  match setting with
  | .groupBy =>
    if given.groupBy.isSome then .error .misuse else .ok { given with groupBy := some value }
  | .stats => if given.stats.isSome then .error .misuse else .ok { given with stats := some value }
  | .library =>
    if given.library.isSome ∨ value = "" then .error .misuse
    else .ok { given with library := some value }

def turnOn (given : Arguments) : Switch → Except Refusal Arguments
  | .ascending => if given.ascending then .error .misuse else .ok { given with ascending := true }
  | .help => .error .help
  | .version => .error .version
  | .takes _ => .error .misuse

/-- The letters behind one dash. A letter that takes a value takes what follows it, with or without
an equals sign; the last letter is left over if it has to take the next argument. -/
def addLetters (given : Arguments) : List Char → Except Refusal (Arguments × Option Setting)
  | [] => .ok (given, none)
  | letter :: rest =>
    match Switch.ofLetter? letter with
    | none => .error .misuse
    | some (.takes setting) =>
      match rest with
      | [] => .ok (given, some setting)
      | '=' :: value => (given.set setting (String.ofList value)).map (·, none)
      | value => (given.set setting (String.ofList value)).map (·, none)
    | some switch =>
      match given.turnOn switch with
      | .ok given => given.addLetters rest
      | .error refusal => .error refusal

def addName (given : Arguments) (cs : List Char) : Except Refusal (Arguments × Option Setting) :=
  let name := String.ofList (cs.takeWhile (· != '='))
  match Switch.ofName? name, cs.dropWhile (· != '=') with
  | none, _ => .error .misuse
  | some (.takes setting), [] => .ok (given, some setting)
  | some (.takes setting), _ :: value =>
    (given.set setting (String.ofList value)).map (·, none)
  | some switch, [] => (given.turnOn switch).map (·, none)
  | some _, _ :: _ => .error .misuse

def add (given : Arguments) (argument : String) : Except Refusal (Arguments × Option Setting) :=
  match argument.toList with
  | '-' :: '-' :: name => given.addName name
  | '-' :: letter :: letters => given.addLetters (letter :: letters)
  | _ => .ok (given.addWord argument, none)

def isWord (argument : String) : Bool :=
  match argument.toList with
  | '-' :: _ :: _ => false
  | _ => true

/-- The arguments from left to right; `pending` waits for its value. Two dashes end the options. -/
def read (given : Arguments) (pending : Option Setting) : List String → Except Refusal Arguments
  | [] => if pending.isSome then .error .misuse else .ok given
  | argument :: rest =>
    match pending with
    | some setting =>
      if isWord argument then
        match given.set setting argument with
        | .ok given => given.read none rest
        | .error refusal => .error refusal
      else .error .misuse
    | none =>
      if argument = "--" then .ok { given with words := given.words ++ rest }
      else match given.add argument with
        | .ok (given, pending) => given.read pending rest
        | .error refusal => .error refusal

def parse (arguments : List String) : Except Refusal Arguments := empty.read none arguments

def query (given : Arguments) : String := " ".intercalate given.words

end Arguments

end Rollup.Command
