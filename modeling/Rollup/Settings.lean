import Rollup.Source
import Rollup.Summary
import Rollup.Toml.Reader

namespace Rollup

structure Settings where
  groupBy : Option String
  stats : Option String
  descending : Option Bool
  library : Option String
  style : Style

namespace Toml

def record? (names : List String) : Toml → Option (List (Option Toml))
  | .table _ entries => some (names.map fun name => entries.lookup name)
  | .array items | .tables items => some (names.mapIdx fun position _ => items[position]?)
  | .date => some (names.map fun _ => none)
  | _ => none

def text? : Toml → Option String
  | .string s => some s
  | _ => none

def flag? : Toml → Option Bool
  | .boolean b => some b
  | _ => none

def size? : Toml → Option Nat
  | .integer n => if 0 ≤ n then some n.toNat else none
  | _ => none

def member? {α : Type} (read? : Toml → Option α) : Option Toml → Option (Option α)
  | none => some none
  | some value => (read? value).map some

end Toml

namespace Settings

def empty : Settings := ⟨none, none, none, none, .plain⟩

def section? (name : String) (names : List String) (root : Toml.Entries) :
    Option (List (Option Toml)) :=
  match root.lookup name with
  | some value => value.record? names
  | none => some (names.map fun _ => none)

def places? (format : Toml) : Option (Option Nat) :=
  match format.record? ["precision"] with
  | some [places] => Toml.member? Toml.size? places
  | _ => none

def formats? : Option Toml → Option Style
  | none => some .plain
  | some (.table _ entries) =>
    entries.foldlM (fun style (column, format) => (places? format).map (style.withPlaces column))
      .plain
  | some _ => none

def ofToml? (root : Toml.Entries) : Option Settings := do
  let defaults ← section? "defaults" ["group_by", "stats", "reverse"] root
  let library ← section? "library" ["path"] root
  let table ← section? "table" ["formats"] root
  match defaults, library, table with
  | [groupBy, stats, descending], [path], [formats] =>
    return {
      groupBy := ← Toml.member? Toml.text? groupBy
      stats := ← Toml.member? Toml.text? stats
      descending := ← Toml.member? Toml.flag? descending
      library := ← Toml.member? Toml.text? path
      style := ← formats? formats }
  | _, _, _ => none

inductive Warning where
  | unreadable (fault : ReadFault)
  | invalid

namespace Warning

def title : Warning → String
  | .unreadable _ => "Failed to read config"
  | .invalid => "Invalid config"

def message (warning : Warning) : String :=
  match warning with
  | .unreadable fault => warning.title ++ ": " ++ fault.message
  | .invalid => warning.title

end Warning

/-- The settings of a source. Where nothing stands there are none, without a warning. -/
def load (source : Source) : Settings × Option Warning :=
  match source.text with
  | .ok text =>
    match (Toml.read? text).bind ofToml? with
    | some settings => (settings, none)
    | none => (empty, some .invalid)
  | .error fault => (empty, if fault.isAbsence then none else some (.unreadable fault))

/-- The options of a summary: what is asked for, else what is set, else what is standard. Asking for
ascending order always counts. -/
def options (settings : Settings) (query : String) (groupBy stats : Option String)
    (ascending : Bool) : Options where
  query := query
  groupBy := (groupBy.or settings.groupBy).getD Options.standard.groupBy
  stats := (stats.or settings.stats).getD Options.standard.stats
  descending := !ascending && settings.descending.getD Options.standard.descending

end Settings

end Rollup
