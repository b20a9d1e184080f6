namespace Rollup

variable {α : Type} (below : α → α → Bool)

/-- Insert into a list that is sorted downwards, ahead of the first element that `x` is not
below. -/
def insertDown (x : α) : List α → List α
  | [] => [x]
  | y :: ys => if below x y then y :: insertDown x ys else x :: y :: ys

def insertAll (sorted xs : List α) : List α :=
  (xs.foldl (fun sorted x => insertDown below x sorted) sorted.reverse).reverse

def sortBy (xs : List α) : List α := insertAll below [] xs

def inOrder (a b : α) : α × α := if below b a then (b, a) else (a, b)

def sortFour (a b c d : α) : List α :=
  let (a, b) := inOrder below a b
  let (c, d) := inOrder below c d
  let least := if below c a then c else a
  let greatest := if below d b then b else d
  let left := if below c a then a else if below d b then c else b
  let right := if below d b then d else if below c a then b else c
  let (left, right) := inOrder below left right
  [least, left, right, greatest]

def sortHalf : Bool → List α → List α
  | true, a :: b :: c :: d :: rest => insertAll below (sortFour below a b c d) rest
  | _, xs => sortBy below xs

structure Merging (α : Type) where
  merged : List α
  left : List α
  right : List α

def Merging.behind (x : α) (merging : Merging α) : Merging α :=
  { merging with merged := x :: merging.merged }

def mergeSteps (leads : α → α → Bool) : Nat → List α → List α → Merging α
  | n + 1, x :: xs, y :: ys =>
    if leads x y then (mergeSteps leads n xs (y :: ys)).behind x
    else (mergeSteps leads n (x :: xs) ys).behind y
  | _, xs, ys => ⟨[], xs, ys⟩

/-- Put together what a merge of two lists has taken at its front and, in reverse, at its back. If
both have taken the same elements, the ends do not meet. -/
def meet? (left right : List α) (front back : Merging α) : Option (List α) :=
  let remaining := front.left.length + back.right.length
  if left.length ≤ remaining ∧ remaining ≤ right.length then
    let middle :=
      front.left.take (remaining - left.length) ++ front.right.take (right.length - remaining)
    some (front.merged ++ middle ++ back.merged.reverse)
  else none

/-- Merge two sorted halves, of which the right one may be longer by one element, from both ends at
once. The ends always meet, unless `below` is no order. -/
def mergeFromEnds? (left right : List α) : Option (List α) :=
  meet? left right (mergeSteps (fun x y => !below y x) left.length left right)
    (mergeSteps (fun y x => !below y x) left.length right.reverse left.reverse)

def shortLength : Nat := 32

def sortShort? (xs : List α) : Option (List α) :=
  if xs.length < 2 then some xs
  else
    let half := xs.length / 2
    let sorted := sortHalf below (8 ≤ xs.length)
    mergeFromEnds? below (sorted (xs.take half)) (sorted (xs.drop half))

end Rollup
