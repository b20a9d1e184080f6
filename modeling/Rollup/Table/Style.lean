import Rollup.Error
import Rollup.Keyed
import Rollup.Number

namespace Rollup

structure Style where
  places : Keyed (Option Nat)

/-- The greatest number of decimal places, and the greatest width of a column. -/
def layoutLimit : Nat := 65535

namespace Style

def plain : Style := ⟨.empty⟩

def withPlaces (style : Style) (column : String) (places : Option Nat) : Style :=
  ⟨style.places.insert column places⟩

def fixed (places : Nat) (value : Number) : Except Error String :=
  if places ≤ layoutLimit then .ok (value.displayPlaces places) else .error .layoutLimit

def cell (style : Style) (column : String) (value : Number) : Except Error String :=
  match (style.places.get? column).join with
  | some places => fixed places value
  | none => .ok value.display

end Style

end Rollup
