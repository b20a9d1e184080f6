import Rollup.Sorting.Quick

namespace Rollup

variable {α : Type}

/-- The stable sort. If `below` is no order, a list that is too long to sort by insertion may have
no result. -/
def sort? (below : α → α → Bool) (xs : List α) : Option (List α) :=
  if xs.length ≤ 20 then some (sortBy below xs)
  else if xs.length ≤ 2 * shortLength then sortRuns? below (sortShort? below) true xs
  else sortRuns? below (sortLong? below) false xs

def dropRepeatsAfter (same : α → α → Bool) (x : α) : List α → List α
  | [] => []
  | y :: ys =>
    if same x y then dropRepeatsAfter same x ys else y :: dropRepeatsAfter same y ys

/-- Keep the first of each stretch of neighbours that are the same. -/
def dropRepeats (same : α → α → Bool) : List α → List α
  | [] => []
  | x :: xs => x :: dropRepeatsAfter same x xs

end Rollup
