import Rollup.Command.Arguments
import Rollup.Settings

namespace Rollup.Command

structure Outcome where
  code : Nat
  output : String
  error : Option Error

/-- What is left to do once the arguments are known. Without a path the library comes from standard
input. -/
inductive Plan where
  | finished (outcome : Outcome)
  | summarize (library : Option String) (options : Options) (style : Style)

def versionText : String := "summarize 0.2.0\n"

def helpText : String :=
  "\n".intercalate [
    "Summarize music library statistics grouped by a field",
    "",
    "Usage: summarize [OPTIONS] [QUERY]...",
    "",
    "Arguments:",
    "  [QUERY]...  Library query selecting the items to summarize",
    "",
    "Options:",
    "  -g, --group-by <GROUP_BY>  Field to group by [default: genre]",
    "  -s, --stats <STATS>        Stats to display, separated by spaces [default: count]",
    "  -R, --not-reverse          Sort ascending instead of descending",
    "  -l, --library <LIBRARY>    JSON library file (if not provided, reads from config or stdin)",
    "  -h, --help                 Print help",
    "  -V, --version              Print version",
    ""]

def plan (settings : Settings) (arguments : List String) : Plan :=
  match Arguments.parse arguments with
  | .error .misuse => .finished ⟨2, "", none⟩
  | .error .help => .finished ⟨0, helpText, none⟩
  | .error .version => .finished ⟨0, versionText, none⟩
  | .ok given =>
    .summarize (given.library.or settings.library)
      (settings.options given.query given.groupBy given.stats given.ascending) settings.style

def exitCode (error : Error) : Nat := if error.isCrash then 101 else 1

def summarize (options : Options) (style : Style) (source : Source) : Outcome :=
  match (Library.load source).bind (Summary.build · options style) with
  | .ok table => ⟨0, Summary.printed (.ok table), none⟩
  | .error error => ⟨exitCode error, "", some error⟩

end Rollup.Command
