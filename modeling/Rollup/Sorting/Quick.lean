import Rollup.Sorting.Runs

namespace Rollup

variable {α : Type} (below : α → α → Bool)

def median (a b c : α) : α :=
  if below a b = below a c then if below b c = below a b then b else c else a

/-- The median of three elements, or of three such medians where they stand far enough apart. -/
def medianOf (element : Nat → α) (n a b c : Nat) : α :=
  if 64 ≤ n * 8 then
    median below (medianOf element (n / 8) a (a + n / 8 * 4) (a + n / 8 * 7))
      (medianOf element (n / 8) b (b + n / 8 * 4) (b + n / 8 * 7))
      (medianOf element (n / 8) c (c + n / 8 * 4) (c + n / 8 * 7))
  else median below (element a) (element b) (element c)
termination_by n
decreasing_by all_goals omega

def pivot? : List α → Option α
  | [] => none
  | x :: xs =>
    let n := (x :: xs).length / 8
    some (medianOf below ((x :: xs).getD · x) n 0 (n * 4) (n * 7))

/-- Sort the elements below a pivot and the other ones apart. No element stands below `ancestor`, so
if `ancestor` does not stand below the pivot, then only the pivot and its equals come first. -/
def sortAround? (sort : Option α → List α → Option (List α)) (ancestor : Option α) (xs : List α)
    (pivot : α) : Option (List α) :=
  -- The pivot is compared with itself too, which changes nothing: it is not below itself.
  let lesser := xs.filter (below · pivot)
  if ancestor.any (!below · pivot) || lesser.isEmpty then do
    let greater ← sort none (xs.filter (below pivot ·))
    some (xs.filter (!below pivot ·) ++ greater)
  else do
    let others ← sort (some pivot) (xs.filter (!below · pivot))
    let lesser ← sort ancestor lesser
    some (lesser ++ others)

def quicksort? (limit : Nat) (ancestor : Option α) (xs : List α) : Option (List α) :=
  if xs.length ≤ shortLength then sortShort? below xs
  else
    match limit with
    | 0 => sortRuns? below (sortShort? below) true xs
    | limit + 1 => (pivot? below xs).bind (sortAround? below (quicksort? limit) ancestor xs)

def sortLong? (xs : List α) : Option (List α) := quicksort? below (2 * Nat.log2 xs.length) none xs

end Rollup
