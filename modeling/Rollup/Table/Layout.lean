import Rollup.Scalar
import Rollup.Sorting
import Rollup.Table.Style

namespace Rollup

structure Row where
  key : Scalar
  values : List (String × Number)

namespace Row

def get? (row : Row) (name : String) : Option Number := row.values.lookup name

def value (row : Row) (name : String) : Except Error Number :=
  match row.get? name with
  | some n => .ok n
  | none => .error (.missingKey name)

end Row

namespace Table

def columns : List Row → List String
  | [] => []
  | row :: _ => row.values.map Prod.fst

def header (label : String) (rows : List Row) : List String := label :: columns rows

def cells (style : Style) (columns : List String) (row : Row) : Except Error (List String) :=
  (columns.mapM fun column => (row.value column).bind (style.cell column)).map
    (row.key.display :: ·)

def widen (widths : List Nat) (line : List String) : List Nat :=
  List.zipWith (fun width cell => max width cell.length) widths line

def widths (header : List String) (body : List (List String)) : List Nat :=
  body.foldl widen (header.map String.length)

def padTo (width : Nat) (cell : String) : String :=
  cell ++ String.ofList (List.replicate (width - cell.length) ' ')

def line (widths : List Nat) (cells : List String) : String :=
  " | ".intercalate (List.zipWith padTo widths cells)

def rule (widths : List Nat) : List String :=
  widths.map fun width => String.ofList (List.replicate width '-')

def layout (header : List String) (body : List (List String)) : Except Error String :=
  let widths := widths header body
  if widths.any (layoutLimit < ·) then .error .layoutLimit
  else .ok ("\n".intercalate ((header :: rule widths :: body).map (line widths)))

def render (label : String) (style : Style) (rows : List Row) : Except Error String :=
  (rows.mapM (cells style (columns rows))).bind (layout (header label rows))

def keyed (sortKey : String) (row : Row) : Except Error (Number × Row) :=
  (row.value sortKey).map (·, row)

def ahead (descending : Bool) (a b : Number × Row) : Bool :=
  if descending then b.1.below a.1 else a.1.below b.1

/-- Rows in the order of their values under a name. Rows with equal values keep their order in both
directions. -/
def sort (sortKey : String) (descending : Bool) (rows : List Row) : Except Error (List Row) :=
  (rows.mapM (keyed sortKey)).bind fun pairs =>
    match sort? (ahead descending) pairs with
    | some sorted => .ok (sorted.map Prod.snd)
    | none => .error .unordered

def renderSorted (label sortKey : String) (descending : Bool) (style : Style) (rows : List Row) :
    Except Error String :=
  (sort sortKey descending rows).bind (render label style)

end Table

end Rollup
