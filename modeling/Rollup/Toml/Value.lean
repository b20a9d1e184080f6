import Rollup.Binary64.Basic

namespace Rollup

namespace Toml

/-- How a table came about: written as a value, opened by a header, implied by a longer header, or
implied by a dotted key. It decides what may still be added. -/
inductive Origin where
  | value
  | header
  | implied
  | dotted
deriving DecidableEq

end Toml

/-- The tables of `tables` each stand under a header of their own, the latest one last. Floats and
dates are recognized, but nothing depends on which they are. -/
inductive Toml where
  | string (s : String)
  | integer (n : Int)
  | float
  | boolean (b : Bool)
  | date
  | array (items : List Toml)
  | tables (items : List Toml)
  | table (origin : Toml.Origin) (entries : List (String × Toml))

namespace Toml

abbrev Entries := List (String × Toml)

def replace (name : String) (value : Toml) (entries : Entries) : Entries :=
  entries.map fun (other, held) => if other = name then (other, value) else (other, held)

def define? (name : String) (value : Toml) (entries : Entries) : Option Entries :=
  if (entries.lookup name).isSome then none else some (entries ++ [(name, value)])

/-- Change the table at the end of a header's path. Of several tables under one name the latest is
meant, and a table that is missing on the way is implied. -/
def change? (f : Entries → Option Entries) : List String → Entries → Option Entries
  | [], entries => f entries
  | name :: path, entries =>
    match entries.lookup name with
    | none => (change? f path []).map fun inner => entries ++ [(name, .table .implied inner)]
    | some (.table origin inner) =>
      if origin = .value then none
      else (change? f path inner).map fun inner => replace name (.table origin inner) entries
    | some (.tables items) =>
      match items.getLast? with
      | some (.table origin inner) =>
        (change? f path inner).map fun inner =>
          replace name (.tables (items.dropLast ++ [.table origin inner])) entries
      | _ => none
    | some _ => none

def openTable? (path : List String) (name : String) (root : Entries) : Option Entries :=
  change? (fun entries =>
    match entries.lookup name with
    | none => some (entries ++ [(name, .table .header [])])
    | some (.table .implied inner) => some (replace name (.table .header inner) entries)
    | some _ => none) path root

def openElement? (path : List String) (name : String) (root : Entries) : Option Entries :=
  change? (fun entries =>
    match entries.lookup name with
    | none => some (entries ++ [(name, .tables [.table .header []])])
    | some (.tables items) => some (replace name (.tables (items ++ [.table .header []])) entries)
    | some _ => none) path root

/-- Give a value to a dotted key. The tables on its way are its own, made by dotted keys of the same
table. -/
def assign? (value : Toml) (name : String) : List String → Entries → Option Entries
  | [], entries => define? name value entries
  | part :: path, entries =>
    match entries.lookup part with
    | none => (assign? value name path []).map fun inner => entries ++ [(part, .table .dotted inner)]
    | some (.table origin inner) =>
      if origin = .dotted ∨ origin = .implied ∧ path ≠ [] then
        (assign? value name path inner).map fun inner => replace part (.table origin inner) entries
      else none
    | some (.tables items) =>
      match path, items.getLast? with
      | _ :: _, some (.table origin inner) =>
        (assign? value name path inner).map fun inner =>
          replace part (.tables (items.dropLast ++ [.table origin inner])) entries
      | _, _ => none
    | some _ => none

end Toml

end Rollup
