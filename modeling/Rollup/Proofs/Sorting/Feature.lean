import Mathlib.Data.List.GetD
import Rollup.Sorting

namespace Rollup

variable {α β : Type} (below : α → α → Bool) (f : β → α)

theorem insertDown_map (x : β) (sorted : List β) :
    insertDown below (f x) (sorted.map f) =
      (insertDown (fun a b => below (f a) (f b)) x sorted).map f := by
  induction sorted with
  | nil => rfl
  | cons y sorted ih =>
    rw [List.map_cons, insertDown, insertDown, ih]
    split <;> rfl

theorem foldl_insertDown_map (xs sorted : List β) :
    (xs.map f).foldl (fun sorted x => insertDown below x sorted) (sorted.map f) =
      (xs.foldl (fun sorted x => insertDown (fun a b => below (f a) (f b)) x sorted) sorted).map
        f := by
  induction xs generalizing sorted with
  | nil => rfl
  | cons x xs ih => rw [List.map_cons, List.foldl_cons, List.foldl_cons, insertDown_map, ih]

theorem insertAll_map (sorted xs : List β) :
    insertAll below (sorted.map f) (xs.map f) =
      (insertAll (fun a b => below (f a) (f b)) sorted xs).map f := by
  rw [insertAll, insertAll, ← List.map_reverse, foldl_insertDown_map, List.map_reverse]

theorem sortBy_map (xs : List β) :
    sortBy below (xs.map f) = (sortBy (fun a b => below (f a) (f b)) xs).map f :=
  insertAll_map below f [] xs

theorem inOrder_map (a b : β) :
    inOrder below (f a) (f b) = (inOrder (fun a b => below (f a) (f b)) a b).map f f := by
  rw [inOrder, inOrder]
  split <;> rfl

theorem sortFour_map (a b c d : β) :
    sortFour below (f a) (f b) (f c) (f d) =
      (sortFour (fun a b => below (f a) (f b)) a b c d).map f := by
  simp only [sortFour, inOrder_map, Prod.map_fst, Prod.map_snd, ← apply_ite f, List.map_cons,
    List.map_nil]

theorem sortHalf_map (four : Bool) (xs : List β) :
    sortHalf below four (xs.map f) =
      (sortHalf (fun a b => below (f a) (f b)) four xs).map f := by
  match four, xs with
  | true, a :: b :: c :: d :: rest =>
    rw [sortHalf, ← insertAll_map, ← sortFour_map]
    rfl
  | true, [] => rfl
  | true, [a] => exact sortBy_map below f [a]
  | true, [a, b] => exact sortBy_map below f [a, b]
  | true, [a, b, c] => exact sortBy_map below f [a, b, c]
  | false, xs => exact sortBy_map below f xs

def Merging.map (merging : Merging β) : Merging α :=
  ⟨merging.merged.map f, merging.left.map f, merging.right.map f⟩

theorem mergeSteps_map (leads : α → α → Bool) (n : Nat) (xs ys : List β) :
    mergeSteps leads n (xs.map f) (ys.map f) =
      (mergeSteps (fun a b => leads (f a) (f b)) n xs ys).map f := by
  induction n generalizing xs ys with
  | zero => rfl
  | succ n ih =>
    match xs, ys with
    | [], _ => rfl
    | x :: xs, [] => rfl
    | x :: xs, y :: ys =>
      rw [List.map_cons, List.map_cons, mergeSteps, mergeSteps, ← List.map_cons, ← List.map_cons,
        ih, ih]
      split <;> rfl

theorem meet?_map (left right : List β) (front back : Merging β) :
    meet? (left.map f) (right.map f) (front.map f) (back.map f) =
      (meet? left right front back).map (List.map f) := by
  simp only [meet?, Merging.map, List.length_map, ← List.map_take, ← List.map_append,
    ← List.map_reverse]
  split <;> rfl

theorem mergeFromEnds?_map (left right : List β) :
    mergeFromEnds? below (left.map f) (right.map f) =
      (mergeFromEnds? (fun a b => below (f a) (f b)) left right).map (List.map f) := by
  simp only [mergeFromEnds?, ← List.map_reverse, mergeSteps_map, List.length_map, meet?_map]

theorem sortShort?_map (xs : List β) :
    sortShort? below (xs.map f) =
      (sortShort? (fun a b => below (f a) (f b)) xs).map (List.map f) := by
  simp only [sortShort?, List.length_map]
  split
  · rfl
  · rw [← List.map_take, ← List.map_drop, sortHalf_map, sortHalf_map, mergeFromEnds?_map]

theorem stretch_map (descending : Bool) (x : β) (xs : List β) :
    stretch below descending (f x) (xs.map f) =
      stretch (fun a b => below (f a) (f b)) descending x xs := by
  induction xs generalizing x with
  | nil => rfl
  | cons y xs ih => rw [List.map_cons, stretch, stretch, ih]

def Run.map (run : Run β) : Run α := ⟨run.items.map f, run.sorted⟩

@[simp]
theorem Run.map_items (run : Run β) : (run.map f).items = run.items.map f := rfl

@[simp]
theorem Run.map_sorted (run : Run β) : (run.map f).sorted = run.sorted := rfl

theorem runs_map (goal piece : Nat) (xs : List β) :
    runs below goal piece (xs.map f) =
      (runs (fun a b => below (f a) (f b)) goal piece xs).map (Run.map f) := by
  fun_induction runs (fun a b => below (f a) (f b)) goal piece xs with
  | case1 => rw [List.map_nil, runs, List.map_nil]
  | case2 x xs descending n h run ih =>
    rw [List.map_cons, runs]
    simp only [List.head?_map, Option.any_map, stretch_map]
    rw [if_pos h, ← List.map_drop, ih, ← List.map_take, ← List.map_cons, ← List.map_reverse,
      ← apply_ite (List.map f)]
    rfl
  | case3 x xs descending n h ih =>
    rw [List.map_cons, runs]
    simp only [List.head?_map, Option.any_map, stretch_map]
    rw [if_neg h, ← List.map_drop, ih, ← List.map_take, ← List.map_cons]
    rfl

theorem merge_map (leads : α → α → Bool) (xs ys : List β) :
    (xs.map f).merge (ys.map f) leads =
      (xs.merge ys fun a b => leads (f a) (f b)).map f :=
  (List.map_merge (by simp)).symm

theorem mergeSorted_map (left right : List β) :
    mergeSorted below (left.map f) (right.map f) =
      (mergeSorted (fun a b => below (f a) (f b)) left right).map f := by
  simp only [mergeSorted, List.length_map, ← List.map_reverse, merge_map, ← apply_ite (List.map f)]

namespace Run

variable {sort : List α → Option (List α)} {sort' : List β → Option (List β)}
variable (hsort : ∀ xs, sort (xs.map f) = (sort' xs).map (List.map f))
include hsort

theorem settle?_map (run : Run β) :
    (run.map f).settle? sort = (run.settle? sort').map (List.map f) := by
  rw [settle?, settle?, map_sorted, map_items, hsort]
  split <;> rfl

theorem join?_map (room : Nat) (left right : Run β) :
    (left.map f).join? below sort room (right.map f) =
      (left.join? (fun a b => below (f a) (f b)) sort' room right).map (map f) := by
  simp only [join?, settle?_map f hsort, map_items, map_sorted, List.length_map]
  split
  · simp only [Option.bind_eq_bind, Option.bind_map, Option.map_bind, Function.comp_def,
      mergeSorted_map]
    rfl
  · rw [← List.map_append]
    rfl

theorem collapse?_map (room depth : Nat) (stack : List (Run β × Nat)) (run : Run β) :
    collapse? below sort room depth (stack.map (Prod.map (map f) id)) (run.map f) =
      (collapse? (fun a b => below (f a) (f b)) sort' room depth stack run).map
        (Prod.map (List.map (Prod.map (map f) id)) (map f)) := by
  induction stack generalizing run with
  | nil => rfl
  | cons entry stack ih =>
    obtain ⟨left, due⟩ := entry
    rw [List.map_cons, Prod.map, id, collapse?, collapse?]
    split
    · simp only [join?_map below f hsort, Option.bind_eq_bind, Option.bind_map, Option.map_bind,
        Function.comp_def, ih]
    · rfl

theorem joinAll?_map (length start : Nat) (stack : List (Run β × Nat)) (run : Run β)
    (rest : List (Run β)) :
    joinAll? below sort length start (stack.map (Prod.map (map f) id)) (run.map f)
        (rest.map (map f)) =
      (joinAll? (fun a b => below (f a) (f b)) sort' length start stack run rest).map (map f) := by
  induction rest generalizing start stack run with
  | nil =>
    rw [List.map_nil, joinAll?, joinAll?, collapse?_map below f hsort, Option.map_map,
      Option.map_map]
    rfl
  | cons next rest ih =>
    simp only [List.map_cons, joinAll?, collapse?_map below f hsort, map_items, List.length_map,
      Option.bind_eq_bind, Option.bind_map, Option.map_bind, Function.comp_def, ← ih]
    rfl

theorem joined?_map (length : Nat) (runs : List (Run β)) :
    joined? below sort length (runs.map (map f)) =
      (joined? (fun a b => below (f a) (f b)) sort' length runs).map (List.map f) := by
  cases runs with
  | nil => rfl
  | cons run rest =>
    have hjoin := joinAll?_map below f hsort length 0 [] run rest
    rw [List.map_nil] at hjoin
    simp only [List.map_cons, joined?, hjoin, Option.bind_eq_bind, Option.bind_map,
      Option.map_bind, Function.comp_def, settle?_map f hsort]

theorem settled?_map (run : Run β) :
    (run.map f).settled? sort = (run.settled? sort').map (map f) := by
  rw [settled?, settled?, settle?_map f hsort, Option.map_map, Option.map_map]
  rfl

theorem mapM_settled?_map (runs : List (Run β)) :
    (runs.map (map f)).mapM (settled? sort) =
      (runs.mapM (settled? sort')).map (List.map (map f)) := by
  induction runs with
  | nil => rfl
  | cons run runs ih =>
    simp only [List.map_cons, List.mapM_cons, ih, settled?_map f hsort, Option.pure_def,
      Option.bind_eq_bind, Option.bind_map, Option.map_bind, Function.comp_def, Option.map_some]

end Run

theorem sortRuns?_map {sort : List α → Option (List α)} {sort' : List β → Option (List β)}
    (hsort : ∀ xs, sort (xs.map f) = (sort' xs).map (List.map f)) (eager : Bool) (xs : List β) :
    sortRuns? below sort eager (xs.map f) =
      (sortRuns? (fun a b => below (f a) (f b)) sort' eager xs).map (List.map f) := by
  rw [sortRuns?, sortRuns?, List.length_map, runs_map, runs_map, Run.mapM_settled?_map f hsort]
  split
  · simp only [Option.bind_eq_bind, Option.bind_map, Option.map_bind, Function.comp_def,
      Run.joined?_map below f hsort]
  · exact Run.joined?_map below f hsort _ _

theorem median_map (a b c : β) :
    median below (f a) (f b) (f c) = f (median (fun a b => below (f a) (f b)) a b c) := by
  simp only [median, ← apply_ite f]

theorem medianOf_map (element : Nat → β) (n a b c : Nat) :
    medianOf below (fun i => f (element i)) n a b c =
      f (medianOf (fun a b => below (f a) (f b)) element n a b c) := by
  fun_induction medianOf (fun a b => below (f a) (f b)) element n a b c with
  | case1 n a b c h iha ihb ihc => rw [medianOf, if_pos h, iha, ihb, ihc, median_map]
  | case2 n a b c h => rw [medianOf, if_neg h, median_map]

theorem pivot?_map (xs : List β) :
    pivot? below (xs.map f) = (pivot? (fun a b => below (f a) (f b)) xs).map f := by
  cases xs with
  | nil => rfl
  | cons x xs =>
    have helement : (fun i => ((x :: xs).map f).getD i (f x)) =
        fun i => f ((x :: xs).getD i x) := by
      funext i
      rw [List.getD_map]
    simp only [List.map_cons, pivot?]
    rw [← List.map_cons, List.length_map, helement, medianOf_map]
    rfl

theorem sortAround?_map {sort : Option α → List α → Option (List α)}
    {sort' : Option β → List β → Option (List β)}
    (hsort : ∀ ancestor xs, sort (ancestor.map f) (xs.map f) =
      (sort' ancestor xs).map (List.map f)) (ancestor : Option β) (xs : List β) (pivot : β) :
    sortAround? below sort (ancestor.map f) (xs.map f) (f pivot) =
      (sortAround? (fun a b => below (f a) (f b)) sort' ancestor xs pivot).map (List.map f) := by
  have hnone := hsort none
  have hsome := hsort (some pivot)
  simp only [Option.map_none, Option.map_some] at hnone hsome
  simp only [sortAround?, List.filter_map, List.isEmpty_map, Option.any_map, Function.comp_def]
  split
  · simp only [hnone, Option.bind_eq_bind, Option.bind_map, Option.map_bind, Function.comp_def,
      Option.map_some, List.map_append]
  · simp only [hsome, hsort, Option.bind_eq_bind, Option.bind_map, Option.map_bind,
      Function.comp_def, Option.map_some, List.map_append]

theorem quicksort?_map (limit : Nat) (ancestor : Option β) (xs : List β) :
    quicksort? below limit (ancestor.map f) (xs.map f) =
      (quicksort? (fun a b => below (f a) (f b)) limit ancestor xs).map (List.map f) := by
  induction limit generalizing ancestor xs with
  | zero =>
    rw [quicksort?, quicksort?, List.length_map, sortShort?_map,
      sortRuns?_map below f (sortShort?_map below f), ← apply_ite]
  | succ limit ih =>
    rw [quicksort?, quicksort?, List.length_map, sortShort?_map, pivot?_map]
    split
    · rfl
    · simp only [Option.bind_map, Option.map_bind, Function.comp_def, sortAround?_map below f ih]

theorem sortLong?_map (xs : List β) :
    sortLong? below (xs.map f) =
      (sortLong? (fun a b => below (f a) (f b)) xs).map (List.map f) := by
  rw [sortLong?, sortLong?, List.length_map]
  exact quicksort?_map below f _ none xs

/-- To sort by a feature is to sort the features. -/
theorem sort?_map (xs : List β) :
    sort? below (xs.map f) = (sort? (fun a b => below (f a) (f b)) xs).map (List.map f) := by
  rw [sort?, sort?, List.length_map]
  split
  · rw [sortBy_map, Option.map_some]
  · split
    · exact sortRuns?_map below f (sortShort?_map below f) true xs
    · exact sortRuns?_map below f (sortLong?_map below f) false xs

end Rollup
