import Rollup.Columns
import Rollup.Item

namespace Rollup

namespace Stat

def complete (stat : Stat) (sample : Item) : Except Error Stat :=
  if stat.reduction = .count then .ok stat
  else match sample.field? stat.field with
    | none => .error (.unknownField stat.field)
    | some value =>
      .ok { stat with measure := if value.isText then some (stat.measure.getD .len) else stat.measure }

end Stat

namespace Columns

def completeEntry (sample : Item) (entry : String × Stat) : Except Error (String × Stat) :=
  (entry.2.complete sample).map (entry.1, ·)

def complete (columns : Columns) (items : List Item) : Except Error Columns :=
  match items with
  | [] => .error .emptyInput
  | sample :: _ => (columns.entries.mapM (completeEntry sample)).map ofList

end Columns

end Rollup
