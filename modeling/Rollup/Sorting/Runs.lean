import Rollup.Sorting.Short

namespace Rollup

variable {α : Type}

structure Run (α : Type) where
  items : List α
  sorted : Bool

section

variable (below : α → α → Bool)

def stretch (descending : Bool) (x : α) : List α → Nat
  | [] => 0
  | y :: ys => if below y x = descending then stretch descending y ys + 1 else 0

/-- Cut a list into runs. Where it goes in one direction for `goal` elements that stretch is a
run, otherwise the next `piece` elements are one that is not sorted yet. -/
def runs (goal piece : Nat) : List α → List (Run α)
  | [] => []
  | x :: xs =>
    let descending := xs.head?.any (below · x)
    let n := stretch below descending x xs
    if goal ≤ n + 1 then
      let run := x :: xs.take n
      ⟨if descending then run.reverse else run, true⟩ :: runs goal piece (xs.drop n)
    else ⟨x :: xs.take (piece - 1), false⟩ :: runs goal piece (xs.drop (piece - 1))
termination_by xs => xs.length
decreasing_by all_goals simp only [List.length_drop, List.length_cons]; omega

/-- The merge takes from the end at which the shorter list has been set aside. -/
def mergeSorted (left right : List α) : List α :=
  if left.length ≤ right.length then left.merge right (fun x y => !below y x)
  else (right.reverse.merge left.reverse (fun y x => !below y x)).reverse

end

/-- The least length of a stretch that is worth merging as it is, about the root of the whole
length. -/
def goodRun (length : Nat) : Nat :=
  if length ≤ 4096 then min (length - length / 2) 64
  else
    let shift := (1 + Nat.log2 length) / 2
    ((1 <<< shift) + (length >>> shift)) / 2

/-- How deep two neighbouring runs meet in a merge tree that halves the whole length at each
level: the number of leading binary digits in which their middles agree. -/
def mergeDepth (length left middle right : Nat) : Nat :=
  let scale := ((1 <<< 62) + length - 1) / length
  63 - Nat.log2 ((scale * (left + middle)) ^^^ (scale * (middle + right)))

/-- How many elements can be set aside: a half of them, or all that eight million bytes hold, at 24
bytes each. -/
def scratchRoom (length : Nat) : Nat := max (length - length / 2) (min length 333333)

section

variable (below : α → α → Bool) (sort : List α → Option (List α))

namespace Run

def settle? (run : Run α) : Option (List α) :=
  if run.sorted then some run.items else sort run.items

def settled? (run : Run α) : Option (Run α) :=
  (run.settle? sort).map fun items => ⟨items, true⟩

/-- Unsorted neighbours stay unsorted, as long as they can be sorted together later. -/
def join? (room : Nat) (left right : Run α) : Option (Run α) :=
  if left.sorted || right.sorted || room < left.items.length + right.items.length then do
    let xs ← left.settle? sort
    let ys ← right.settle? sort
    some ⟨mergeSorted below xs ys, true⟩
  else some ⟨left.items ++ right.items, false⟩

def collapse? (room depth : Nat) : List (Run α × Nat) → Run α → Option (List (Run α × Nat) × Run α)
  | [], run => some ([], run)
  | (left, due) :: stack, run =>
    if depth ≤ due then do
      let joined ← left.join? below sort room run
      collapse? room depth stack joined
    else some ((left, due) :: stack, run)

/-- Join runs to one. The stack holds those ahead of `run`, the nearest first, each with the depth
at which it meets what follows it. -/
def joinAll? (length start : Nat) (stack : List (Run α × Nat)) (run : Run α) :
    List (Run α) → Option (Run α)
  | [] => (collapse? below sort (scratchRoom length) 0 stack run).map Prod.snd
  | next :: rest => do
    let middle := start + run.items.length
    let depth := mergeDepth length start middle (middle + next.items.length)
    let (stack, joined) ← collapse? below sort (scratchRoom length) depth stack run
    joinAll? length middle ((joined, depth) :: stack) next rest

def joined? (length : Nat) : List (Run α) → Option (List α)
  | [] => some []
  | run :: rest => do
    let whole ← joinAll? below sort length 0 [] run rest
    whole.settle? sort

end Run

/-- Sort by merging runs. An eager sort sorts short pieces at once, the other one leaves pieces
unsorted for as long as nothing sorted stands beside them. -/
def sortRuns? (eager : Bool) (xs : List α) : Option (List α) :=
  let goal := goodRun xs.length
  if eager then do
    let settled ← (runs below goal shortLength xs).mapM (Run.settled? sort)
    Run.joined? below sort xs.length settled
  else Run.joined? below sort xs.length (runs below goal goal xs)

end

end Rollup
