import Rollup.Grouping
import Rollup.Library
import Rollup.Stat.Completion
import Rollup.Stat.Evaluation
import Rollup.Table.Layout

namespace Rollup

/-- What to summarize. The first of the statistics decides the order of the rows. -/
structure Options where
  query : String
  groupBy : String
  stats : String
  descending : Bool

namespace Options

def standard : Options := ⟨"", "genre", "count", true⟩

end Options

namespace Summary

/-- The rows of a summary in the order of the groups, and the name of the column to sort by. -/
structure Results where
  rows : List Row
  sortKey : String

def sortKey (options : Options) (columns : Columns) : Except Error String :=
  match columns.sortKey? with
  | some name => .ok name
  | none => .error (.malformedStat options.stats .noStats)

def cell (items : List Item) (entry : String × Stat) : Except Error (String × Number) :=
  (entry.2.evaluate items).map (entry.1, ·)

def row (columns : Columns) (group : Group Item) : Except Error Row :=
  (columns.entries.mapM (cell group.members)).map (Row.mk group.key)

def compute (library : Library) (options : Options) : Except Error Results := do
  let columns ← Columns.parse options.stats
  let sortKey ← sortKey options columns
  let items := library.matching options.query
  let columns ← columns.complete items
  let category := Text.lowercase options.groupBy
  let groups ← groupBy category (·.field? category) items
  let rows ← groups.mapM (row columns)
  return ⟨rows, sortKey⟩

def build (library : Library) (options : Options) (style : Style) : Except Error String := do
  let results ← compute library options
  Table.renderSorted options.groupBy results.sortKey options.descending style results.rows

def printed (table : Except Error String) : String :=
  match table with
  | .ok text => text ++ "\n"
  | .error _ => ""

end Summary

end Rollup
