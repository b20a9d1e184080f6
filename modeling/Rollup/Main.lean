import Rollup.Command.Program

namespace Rollup.Command

def fault (error : IO.Error) : ReadFault :=
  match error with
  | .noFileOrDirectory .. => .missing
  | .inappropriateType _ 21 _ => .directory
  | .inappropriateType .. => .notDirectory
  | .permissionDenied .. => .denied
  | .invalidArgument .. => .nameTooLong
  | other => .system (toString other)

def readFile (path : String) : IO Source := do
  if path.contains '\x00' then return .unreadable .zeroInName
  match ← (IO.FS.readBinFile path).toBaseIO with
  | .ok content => return .bytes content
  | .error error => return .unreadable (fault error)

def readInput : IO Source := do
  return .bytes (← (← IO.getStdin).readBinToEnd)

def settingsPath : IO String := do
  return (← IO.getEnv "HOME").getD "." ++ "/.config/summarize/config.toml"

def report (outcome : Outcome) : IO UInt32 := do
  IO.print outcome.output
  match outcome.error with
  | some error => IO.eprintln ("Error: " ++ error.message)
  | none => if outcome.code = 2 then IO.eprintln "error: invalid arguments"
  return UInt32.ofNat outcome.code

def run (arguments : List String) : IO UInt32 := do
  let (settings, warning) := Settings.load (← readFile (← settingsPath))
  if let some warning := warning then
    IO.eprintln ("Warning: " ++ warning.message)
  match plan settings arguments with
  | .finished outcome => report outcome
  | .summarize path options style =>
    let source ← match path with
      | some path => readFile path
      | none => readInput
    report (summarize options style source)

end Rollup.Command

def main (arguments : List String) : IO UInt32 := Rollup.Command.run arguments
