namespace Rollup

/-- Why a source cannot be read: nothing stands at its place, a directory stands there, a file stands
where its path needs a directory, the system refuses, or the content is not UTF-8. -/
inductive ReadFault where
  | missing
  | directory
  | notDirectory
  | denied
  | nameTooLong
  | zeroInName
  | notText
  | system (description : String)
deriving DecidableEq

namespace ReadFault

def message : ReadFault → String
  | .missing => "No such file or directory (os error 2)"
  | .directory => "Is a directory (os error 21)"
  | .notDirectory => "Not a directory (os error 20)"
  | .denied => "Permission denied (os error 13)"
  | .nameTooLong => "File name too long (os error 36)"
  | .zeroInName => "file name contained an unexpected NUL byte"
  | .notText => "stream did not contain valid UTF-8"
  | .system description => description

def isAbsence : ReadFault → Bool
  | .missing | .notDirectory | .nameTooLong | .zeroInName => true
  | .directory | .denied | .notText | .system _ => false

end ReadFault

inductive Source where
  | bytes (content : ByteArray)
  | unreadable (fault : ReadFault)

namespace Source

def text : Source → Except ReadFault String
  | .unreadable fault => .error fault
  | .bytes content =>
    match String.fromUTF8? content with
    | some s => .ok s
    | none => .error .notText

end Source

end Rollup
